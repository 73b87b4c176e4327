import EventBroker.Proofs.Effects.Answering

namespace EventBroker.Broker

variable (b : Broker)

def waits (call : Nat) : Option Waiting := (b.calls.get? call).map Call.waiting

theorem waits_of_calls {b b' : Broker} (h : b'.calls = b.calls) : b'.waits = b.waits := by
  funext call
  rw [waits, h, waits]

section Answers

variable {b} {b' : Broker}

theorem calls_of_desk (h : b'.desk = b.desk) : b'.calls = b.calls :=
  congrArg Desk.calls h

theorem waits_of_desk (h : b'.desk = b.desk) : b'.waits = b.waits :=
  waits_of_calls (calls_of_desk h)

theorem waits_handle (b : Broker) (q : Command) : (b.handle q).waits = b.waits := by
  funext k
  have hc : (b.handle q).calls = (b.desk.answer q (b.reply q)).calls :=
    congrArg Desk.calls (b.desk_handle q)
  rw [waits, hc, Desk.get?_answer]
  split
  · rw [Option.map_map]
    rfl
  · rfl

theorem waits_of_forget {qs : List Command} (h : b'.desk = b.desk.forget qs) :
    b'.waits = b.waits := by
  funext k
  have hc : b'.calls = (b.desk.forget qs).calls := congrArg Desk.calls h
  rw [waits, hc, Desk.get?_forget]
  split
  · rw [Option.map_map]
    rfl
  · rfl

theorem waits_sequencerStep (h : b.sequencerStep = some b') : b'.waits = b.waits := by
  cases sequencerStep_cases h with
  | pump hs h =>
    cases hb : b.breaks with
    | true => exact waits_of_forget (h.eq_breakDown hb ▸ b.desk_breakDown)
    | false => exact waits_of_desk (h.desk_eq hb)
  | stop => exact waits_of_forget b.desk_stopSequencer
  | take => exact (waits_handle _ _).trans (waits_of_calls rfl)
  | sweep _ _ _ h => exact waits_of_calls (congrArg Desk.calls (desk_sweep h))

end Answers

def Leaving (s : Subscriber) : Prop :=
  ∃ call r, b.waits call = some (.retire r) ∧ s ∈ r.rest

section Leaving

variable {b} {b' : Broker} {s : Subscriber}

theorem leaving_of_waits (hw : b'.waits = b.waits) (h : b'.Leaving s) : b.Leaving s := by
  rw [Leaving, hw] at h
  exact h

theorem leaving_of_calls (hc : b'.calls = b.calls) : b'.Leaving s → b.Leaving s :=
  leaving_of_waits (waits_of_calls hc)

theorem leaving_of_desk (h : b'.desk = b.desk) : b'.Leaving s → b.Leaving s :=
  leaving_of_calls (calls_of_desk h)

theorem leaving_setCall {call : Nat} {w : Waiting} (h : (b.setCall call w).Leaving s) :
    b.Leaving s ∨ ∃ r, w = .retire r ∧ s ∈ r.rest := by
  obtain ⟨call', r, hw, hs⟩ := h
  rw [waits, setCall, Table.get?_insert] at hw
  split at hw
  · cases hw
    exact .inr ⟨r, rfl, hs⟩
  · exact .inl ⟨call', r, hw, hs⟩

theorem leaving_endCall {call : Nat} (h : (b.endCall call).Leaving s) : b.Leaving s := by
  obtain ⟨call', r, hw, hs⟩ := h
  rw [waits, endCall, Table.get?_erase] at hw
  split at hw
  · cases hw
  · exact ⟨call', r, hw, hs⟩

theorem leaving_ask {w : Waiting} {command : Nat → Command} {otherwise : Response}
    (hw : ∀ r, w ≠ .retire r) (h : (b.ask w command otherwise).2.Leaving s) : b.Leaving s := by
  rw [ask] at h
  split at h
  · cases leaving_setCall (leaving_of_calls rfl h) with
    | inl h => exact leaving_of_calls rfl h
    | inr h =>
      obtain ⟨r, hr, -⟩ := h
      exact absurd hr (hw r)
  · exact h

theorem leaving_retire {call : Nat} {cause : Departure} {total : Nat} {leaving : List Subscriber}
    (h : (retire call cause total leaving b).2.Leaving s) : b.Leaving s ∨ s ∈ leaving := by
  induction leaving generalizing b with
  | nil =>
    rw [retire] at h
    apply Or.inl
    have hc : (b.allDeparted cause total).2.calls = b.calls := by
      cases cause with
      | unsubscribed => rfl
      | ownerDied pid =>
        simp only [allDeparted]
        split <;> rfl
    exact leaving_of_calls hc (leaving_endCall h)
  | cons t rest ih =>
    rw [retire] at h
    dsimp only at h
    split at h
    · cases leaving_setCall (leaving_of_calls rfl h) with
      | inl h => exact .inl (leaving_of_calls rfl h)
      | inr h =>
        obtain ⟨r, hr, hs⟩ := h
        cases hr
        exact .inr (List.mem_cons_of_mem _ hs)
    · cases ih h with
      | inl h => exact .inl (leaving_of_calls rfl h)
      | inr h => exact .inr (List.mem_cons_of_mem _ h)

theorem leaving_unsubscribe {id : SubscriberId} (h : (b.unsubscribe id).2.Leaving s) :
    b.Leaving s ∨ s ∈ (b.leavers id).1 := by
  rw [unsubscribe] at h
  rw [leavers]
  cases hu : b.registry.unsubscribe id with
  | none =>
    rw [hu] at h
    exact .inl h
  | some x =>
    rw [hu] at h
    exact (leaving_retire h).imp_left (leaving_of_calls rfl)

theorem leaving_ownerDied {pid : Pid} (h : (b.ownerDied pid).2.Leaving s) :
    b.Leaving s ∨ s ∈ (b.registry.removeOwner pid).1 :=
  (leaving_retire h).imp_left (leaving_of_calls rfl)

theorem leaving_shutdown (h : b.shutdown.2.Leaving s) : b.Leaving s := by
  rw [shutdown] at h
  generalize (if b.joined = true then [] else b.workers) = ws at h
  dsimp only at h
  split at h
  · exact leaving_of_calls rfl h
  · cases leaving_setCall h with
    | inl h => exact leaving_of_calls rfl h
    | inr h =>
      obtain ⟨r, hr, -⟩ := h
      cases hr

theorem leaving_of_stillLeaving {call : Nat} (h : s ∈ b.stillLeaving call) : b.Leaving s := by
  rw [stillLeaving] at h
  split at h
  · rename_i r a hc
    exact ⟨call, r, by rw [waits, hc]; rfl, h⟩
  · cases h

theorem leaving_resume {call : Nat} (h : (((b.resume call).map (·.2)).getD b).Leaving s) :
    b.Leaving s := by
  have retired : ∀ (r : Retirement) (a : Option Answer) (released : Bool),
      b.calls.get? call = some ⟨.retire r, a⟩ →
      (retire call r.cause r.total r.rest
        (b.departed r.current r.dropped released r.cause.reason)).2.Leaving s → b.Leaving s := by
    intro r a released hc h
    cases leaving_retire h with
    | inl h => exact leaving_of_calls rfl h
    | inr h => exact ⟨call, r, by rw [waits, hc]; rfl, h⟩
  rw [resume] at h
  cases hc : b.calls.get? call with
  | none =>
    rw [hc] at h
    exact h
  | some c =>
    obtain ⟨waiting, answer⟩ := c
    rw [hc] at h
    cases waiting with
    | finish =>
      cases answer with
      | none => exact h
      | some a => cases a <;> exact leaving_endCall h
    | active =>
      cases answer with
      | none => exact h
      | some a => cases a <;> exact leaving_endCall h
    | retire r =>
      cases answer with
      | none => exact h
      | some a => cases a <;> exact retired r _ _ hc h
    | shutdown workers =>
      dsimp only at h
      split at h
      · exact leaving_of_calls rfl (leaving_endCall h)
      · exact h

end Leaving

end EventBroker.Broker
