import EventBroker.Proofs.Attending

namespace EventBroker.Broker

variable {b : Broker} {k : Nat} {w : Waiting} {x : Answer} {q : Command}

def TakesUpIn (b : Broker) (q : Command) (P : Broker → Prop) (actions : List Action) : Prop :=
  ∃ pre post rest, actions = pre ++ .work .sequencer :: post ∧ (b.run pre).TakesUp q rest ∧
    P (b.run pre)

theorem TakesUpIn.imp {P Q : Broker → Prop} {actions : List Action} (hpq : ∀ b, P b → Q b)
    (h : b.TakesUpIn q P actions) : b.TakesUpIn q Q actions := by
  obtain ⟨pre, post, rest, hactions, hq, hp⟩ := h
  exact ⟨pre, post, rest, hactions, hq, hpq _ hp⟩

theorem TakesUpIn.cons {P : Broker → Prop} {a : Action} {actions : List Action}
    (h : (b.act a).TakesUpIn q P actions) : b.TakesUpIn q P (a :: actions) := by
  obtain ⟨pre, post, rest, rfl, hq, hp⟩ := h
  exact ⟨a :: pre, post, rest, rfl, hq, hp⟩

namespace Attends

variable {a : Action} {c : Counter}

theorem answered (h : b.Attends a c) (hb : b.counter.Sound) (hk : b.calls.get? k = some ⟨w, some x⟩)
    (ha : a ≠ .resume k) : c.calls.get? k = some ⟨w, some x⟩ := by
  have hnot : k ∉ b.sequencer.commands.filterMap Command.caller? := by
    intro hc
    cases (hb.answer_eq_none hk hc).1
  have old : b.callsBegun + 1 ≠ k := hb.next_ne hk
  cases h with
  | same hd => exact hk
  | send hd hq => exact hk
  | ask ht hw hq => rwa [Table.get?_insert, if_neg old]
  | pass hd => rwa [Table.get?_erase, if_neg old]
  | wait ws hd => rwa [Table.get?_insert, if_neg old]
  | conclude ha' hcall hc hl =>
    rwa [Table.get?_erase, if_neg]
    rintro rfl
    exact ha ha'
  | proceed ha' ht hcall hl =>
    rwa [Table.get?_insert, if_neg]
    rintro rfl
    exact ha ha'
  | @take q rest ha' hq =>
    rw [Desk.get?_answer, if_neg]
    · exact hk
    · intro hc
      exact hnot (List.mem_filterMap.2 ⟨q, hq.commands ▸ List.mem_cons_self, hc⟩)
  | stop ha' | breakDown ha' =>
    rw [Desk.get?_forget, if_neg hnot]
    exact hk

theorem unanswered (h : b.Attends a c) (hb : b.counter.Sound)
    (hk : b.calls.get? k = some ⟨w, none⟩) (hw : ∀ ws, w ≠ .shutdown ws)
    (hq : q ∈ b.sequencer.commands) (hc : q.caller? = some k) :
    c.calls.get? k = some ⟨w, none⟩ ∧ q ∈ c.commands ∨
      a = .work .sequencer ∧ ∃ x, c.calls.get? k = some ⟨w, some x⟩ ∧
        (x = .lost ∨ ∃ rest, b.TakesUp q rest ∧ x = b.reply q) := by
  have old : b.callsBegun + 1 ≠ k := hb.next_ne hk
  cases h with
  | same hd => exact .inl ⟨hk, hq⟩
  | send hd hq' => exact .inl ⟨hk, List.mem_append_left _ hq⟩
  | ask ht hw hq' =>
    exact .inl ⟨by rwa [Table.get?_insert, if_neg old], List.mem_append_left _ hq⟩
  | pass hd => exact .inl ⟨by rwa [Table.get?_erase, if_neg old], hq⟩
  | wait ws hd => exact .inl ⟨by rwa [Table.get?_insert, if_neg old], hq⟩
  | @conclude k' call ha hcall hanswer hl =>
    by_cases he : k' = k
    · subst he
      cases hcall.symm.trans hk
      obtain hanswer | ⟨ws, hanswer⟩ := hanswer
      · exact absurd rfl hanswer
      · exact absurd hanswer (hw ws)
    · exact .inl ⟨by rwa [Table.get?_erase, if_neg he], hq⟩
  | @proceed k' ret ret' answer ha ht hcall hl =>
    have hne : k' ≠ k := by
      rintro rfl
      cases hcall.symm.trans hk
    exact .inl ⟨by rwa [Table.get?_insert, if_neg hne], List.mem_append_left _ hq⟩
  | @take q' rest ha hq' =>
    have hcalls : b.desk.calls.get? k = some ⟨w, none⟩ := hk
    rw [Desk.get?_answer]
    rw [hq'.commands] at hq
    cases List.mem_cons.1 hq with
    | inl he =>
      subst he
      rw [if_pos hc, hcalls]
      exact .inr ⟨ha, _, rfl, .inr ⟨rest, hq', rfl⟩⟩
    | inr hq =>
      rw [if_neg (hb.caller_ne hq'.commands hq hc)]
      exact .inl ⟨hk, hq⟩
  | stop ha | breakDown ha =>
    have hcalls : b.desk.calls.get? k = some ⟨w, none⟩ := hk
    rw [Desk.get?_forget, if_pos (List.mem_filterMap.2 ⟨q, hq, hc⟩), hcalls]
    exact .inr ⟨ha, _, rfl, .inl rfl⟩

end Attends

theorem answered_run (hb : b.counter.Sound) (hk : b.calls.get? k = some ⟨w, some x⟩)
    {actions : List Action} (ha : .resume k ∉ actions) :
    (b.run actions).calls.get? k = some ⟨w, some x⟩ := by
  induction actions generalizing b with
  | nil => exact hk
  | cons a rest ih =>
    obtain ⟨ha, hrest⟩ := List.ne_and_not_mem_of_not_mem_cons ha
    exact ih (counter_act hb a) ((b.attends_act a).answered hb hk ha.symm) hrest

/-- By induction on the run: the answer comes at the step at which the command is taken up. -/
theorem takesUpIn_of_answered (hb : b.counter.Sound) (hk : b.calls.get? k = some ⟨w, none⟩)
    (hw : ∀ ws, w ≠ .shutdown ws) (hq : q ∈ b.sequencer.commands) (hc : q.caller? = some k)
    {actions : List Action} (ha : .resume k ∉ actions) :
    ∃ y, (b.run actions).calls.get? k = some ⟨w, y⟩ ∧
      ∀ x, y = some x → x = .lost ∨ b.TakesUpIn q (fun b' => b'.reply q = x) actions := by
  induction actions generalizing b with
  | nil => exact ⟨none, hk, fun x hx => by cases hx⟩
  | cons a rest ih =>
    obtain ⟨ha, hrest⟩ := List.ne_and_not_mem_of_not_mem_cons ha
    obtain ⟨hk', hq'⟩ | ⟨rfl, x, hx, hanswer⟩ := (b.attends_act a).unanswered hb hk hw hq hc
    · obtain ⟨y, hy, hup⟩ := ih (counter_act hb a) hk' hq' hrest
      exact ⟨y, hy, fun x hx => (hup x hx).imp_right TakesUpIn.cons⟩
    · refine ⟨some x, answered_run (counter_act hb _) hx hrest, fun x' hx' => ?_⟩
      cases hx'
      refine hanswer.imp_right fun h => ?_
      obtain ⟨left, hup, hreply⟩ := h
      exact ⟨[], rest, left, rfl, hup, hreply.symm⟩

theorem answered_of_takesUpIn {P : Broker → Prop} (hb : b.counter.Sound) (hc : q.caller? = some k)
    {actions : List Action} (ha : .resume k ∉ actions) (h : b.TakesUpIn q P actions) :
    ∃ b' w, P b' ∧ (b.run actions).calls.get? k = some ⟨w, some (b'.reply q)⟩ := by
  obtain ⟨pre, post, rest, rfl, hup, hp⟩ := h
  have hpre := counter_run hb pre
  have hpost : .resume k ∉ post :=
    fun hm => ha (List.mem_append_right _ (List.mem_cons_of_mem _ hm))
  obtain ⟨w, hw, -⟩ := hpre.asked q
    ((show (b.run pre).counter.commands = _ from hup.commands) ▸ List.mem_cons_self) k hc
  have hcalls : ((b.run pre).act (.work .sequencer)).calls =
      ((b.run pre).desk.answer q ((b.run pre).reply q)).calls := by
    have hact := congrArg Broker.desk (act_takesUp hup)
    rw [desk_handle] at hact
    exact congrArg Desk.calls hact
  rw [run_append]
  refine ⟨_, w, hp, answered_run (counter_act hpre _) ?_ hpost⟩
  rw [hcalls, Desk.get?_answer, if_pos hc, show (b.run pre).desk.calls.get? k = _ from hw]
  rfl

section Requests

theorem ask_open (ht : b.takesCommands = true) (w : Waiting) (command : Nat → Command)
    (otherwise : Response) :
    (b.ask w command otherwise).1 = .waiting (b.callsBegun + 1) ∧
      (b.ask w command otherwise).2.calls.get? (b.callsBegun + 1) = some ⟨w, none⟩ ∧
      (b.ask w command otherwise).2.sequencer.commands =
        b.sequencer.commands ++ [command (b.callsBegun + 1)] := by
  rw [ask, if_pos ht]
  refine ⟨rfl, ?_, rfl⟩
  change (b.calls.insert (b.callsBegun + 1) { waiting := w }).get? (b.callsBegun + 1) = _
  rw [Table.get?_insert, if_pos rfl]

theorem takesUp_ask (hl : b.sequencer.stage = .listening) (hc : b.cancelled = false)
    (hq : b.sequencer.commands = []) (w : Waiting) (command : Nat → Command)
    (otherwise : Response) :
    (b.ask w command otherwise).2.TakesUp (command (b.callsBegun + 1)) [] := by
  have ht : b.takesCommands = true := b.takesCommands_iff.2 (by simp [hl])
  have hcommands := (ask_open ht w command otherwise).2.2
  rw [hq] at hcommands
  rw [ask, if_pos ht] at hcommands ⊢
  exact ⟨hl, hc, hcommands⟩

theorem ask_closed (ht : b.takesCommands = false) (w : Waiting) (command : Nat → Command)
    (otherwise : Response) :
    b.ask w command otherwise = (.done otherwise, b) := by
  rw [ask, ht]
  rfl

theorem finish_outcome (hb : b.counter.Sound) (ht : b.takesCommands = true)
    (r : SubscriberId) (code : Int) (data : String) (abort : Bool) {after : List Action}
    (ha : .resume (b.callsBegun + 1) ∉ after) :
    let k := b.callsBegun + 1
    let b' := b.act (.finish r code data abort)
    (∀ p, (b'.run after).resume k = some p →
        ∃ o, p = (.done (.finished o), (b'.run after).endCall k)) ∧
      ((b'.run after).resume k = some (.done (.finished .accepted), (b'.run after).endCall k) ↔
        b'.TakesUpIn (.finish r code data abort k) (·.ParkedOn r) after) := by
  intro k b'
  obtain ⟨-, hk, hq⟩ := ask_open ht .finish (.finish r code data abort) (.finished .stale)
  have hb' : b'.counter.Sound := counter_act hb _
  obtain ⟨y, hy, hup⟩ := takesUpIn_of_answered hb' hk (fun _ => Waiting.noConfusion)
    (hq ▸ List.mem_append_right _ (List.mem_singleton_self _)) rfl ha
  refine ⟨?_, ?_, ?_⟩
  · intro p h
    rw [resume, hy] at h
    cases y with
    | none => cases h
    | some x => cases x <;> cases h <;> exact ⟨_, rfl⟩
  · intro h
    rw [resume, hy] at h
    have hx : y = some (.outcome .accepted) := by
      cases y with
      | none => cases h
      | some x =>
        cases x <;> cases h
        rfl
    refine ((hup _ hx).resolve_left Answer.noConfusion).imp fun b₀ hreply => ?_
    rw [reply] at hreply
    split at hreply
    · assumption
    · cases hreply
  · intro h
    obtain ⟨b₀, w, hp, hcall⟩ := answered_of_takesUpIn hb' rfl ha h
    cases hy.symm.trans hcall
    rw [resume, hcall, reply, if_pos hp]

theorem active_shown_iff (hb : b.counter.Sound) (ht : b.takesCommands = true)
    (r : SubscriberId) {after : List Action} (ha : .resume (b.callsBegun + 1) ∉ after) :
    let k := b.callsBegun + 1
    let b' := b.act (.active r)
    (∃ s, (b'.run after).resume k =
        some (.done (.active (some s)), (b'.run after).endCall k)) ↔
      b'.TakesUpIn (.active r k) (·.ParkedOn r) after := by
  intro k b'
  obtain ⟨-, hk, hq⟩ := ask_open ht .active (.active r) (.active none)
  have hb' : b'.counter.Sound := counter_act hb _
  obtain ⟨y, hy, hup⟩ := takesUpIn_of_answered hb' hk (fun _ => Waiting.noConfusion)
    (hq ▸ List.mem_append_right _ (List.mem_singleton_self _)) rfl ha
  have shown : ∀ b₀ : Broker, b₀.ParkedOn r ↔ ∃ s, b₀.reply (.active r (b.callsBegun + 1)) =
      .snapshot (some s) := by
    intro b₀
    rw [parkedOn_iff, reply]
    cases b₀.sequencer.active with
    | none => simp
    | some c => by_cases hc : c.awaiting = some r <;> simp [hc]
  constructor
  · rintro ⟨s, h⟩
    rw [resume, hy] at h
    have hx : y = some (.snapshot (some s)) := by
      cases y with
      | none => cases h
      | some x =>
        cases x <;> cases h
        rfl
    exact ((hup _ hx).resolve_left Answer.noConfusion).imp fun b₀ hreply => (shown b₀).2 ⟨s, hreply⟩
  · intro h
    obtain ⟨b₀, w, hp, hcall⟩ := answered_of_takesUpIn hb' rfl ha h
    obtain ⟨s, hs⟩ := (shown b₀).1 hp
    cases hy.symm.trans hcall
    exact ⟨s, by rw [resume, hcall, hs]⟩

end Requests

end EventBroker.Broker
