import EventBroker.Proofs.Warrants

namespace EventBroker

inductive Waiting.Asks (k : Nat) : Waiting → Command → Prop
  | finish (r : SubscriberId) (code : Int) (data : String) (abort : Bool) :
    Asks k .finish (.finish r code data abort k)
  | active (r : SubscriberId) : Asks k .active (.active r k)
  | retire (ret : Retirement) : Asks k (.retire ret) (.release ret.current.id k)

theorem Waiting.Asks.caller {k : Nat} {w : Waiting} {q : Command} (h : w.Asks k q) :
    q.caller? = some k := by
  cases h <;> rfl

def Waiting.leaving : Waiting → List Subscriber
  | .retire ret => ret.current :: ret.rest
  | _ => []

structure Counter where
  calls : Table Nat Call
  begun : Nat
  commands : List Command
  taking : Bool

theorem View.Moves.commands_eq {v w : View} {es : List ChainEvent} (h : v.Moves es w)
    (hs : v.sequencer.stage ≠ .listening)
    (hb : v.sequencer.stage = .pumping →
      v.sequencer.active.any (·.breaksDown v.now) = false) :
    w.sequencer.commands = v.sequencer.commands ∧ w.sequencer.stage ≠ .stopped := by
  cases h <;> simp_all [tell]

namespace Broker

variable (b : Broker)

def counter : Counter := ⟨b.calls, b.callsBegun, b.sequencer.commands, b.takesCommands⟩

structure TakesUp (q : Command) (rest : List Command) : Prop where
  listening : b.sequencer.stage = .listening
  running : b.cancelled = false
  commands : b.sequencer.commands = q :: rest

inductive Attends (a : Action) : Counter → Prop
  | same (h : b.departing a = []) : Attends a b.counter
  | send {q : Command} (h : b.departing a = []) (hq : q.caller? = none) :
    Attends a { b.counter with commands := b.sequencer.commands ++ [q] }
  | ask {w : Waiting} {q : Command} (ht : b.takesCommands = true)
      (hw : w.leaving = b.departing a) (hq : w.Asks (b.callsBegun + 1) q) :
    Attends a { b.counter with
      calls := b.calls.insert (b.callsBegun + 1) { waiting := w }
      begun := b.callsBegun + 1
      commands := b.sequencer.commands ++ [q] }
  | pass (h : b.departing a = [] ∨ b.takesCommands = false) : Attends a { b.counter with
      calls := b.calls.erase (b.callsBegun + 1)
      begun := b.callsBegun + 1 }
  | wait (ws : List Worker) (h : b.departing a = []) : Attends a { b.counter with
      calls := b.calls.insert (b.callsBegun + 1) { waiting := .shutdown ws }
      begun := b.callsBegun + 1 }
  | conclude {k : Nat} {c : Call} (ha : a = .resume k) (hk : b.calls.get? k = some c)
      (hc : c.answer ≠ none ∨ ∃ ws, c.waiting = .shutdown ws)
      (hl : c.waiting.leaving.tail = [] ∨ b.takesCommands = false) :
    Attends a { b.counter with calls := b.calls.erase k }
  | proceed {k : Nat} {ret ret' : Retirement} {answer : Answer} (ha : a = .resume k)
      (ht : b.takesCommands = true) (hk : b.calls.get? k = some ⟨.retire ret, some answer⟩)
      (hr : ret.rest = ret'.current :: ret'.rest) : Attends a { b.counter with
      calls := b.calls.insert k { waiting := .retire ret' }
      commands := b.sequencer.commands ++ [.release ret'.current.id k] }
  | take {q : Command} {rest : List Command} (ha : a = .work .sequencer) (hq : b.TakesUp q rest) :
    Attends a { b.counter with
      calls := (b.desk.answer q (b.reply q)).calls
      commands := rest }
  | stop (ha : a = .work .sequencer) (hs : b.sequencer.stage = .listening)
      (hc : b.cancelled = true) : Attends a { b.counter with
      calls := (b.desk.forget b.sequencer.commands).calls
      commands := []
      taking := false }
  | breakDown (ha : a = .work .sequencer) (hs : b.sequencer.stage = .pumping)
      (hb : b.breaks = true) : Attends a { b.counter with
      calls := (b.desk.forget b.sequencer.commands).calls
      commands := []
      taking := false }

variable {b} {b' : Broker}

theorem counter_eq (hd : b'.desk = b.desk) (hs : b'.sequencer = b.sequencer) :
    b'.counter = b.counter := by
  have hc : b'.calls = b.calls := congrArg Desk.calls hd
  have hn : b'.callsBegun = b.callsBegun := congrArg Desk.begun hd
  rw [counter, counter, takesCommands, takesCommands, hc, hn, hs]

theorem act_takesUp {q : Command} {rest : List Command} (h : b.TakesUp q rest) :
    b.act (.work .sequencer) =
      ({ b with sequencer := { b.sequencer with commands := rest } }).handle q := by
  have hc : ¬b.cancelled = true := Bool.not_eq_true _ ▸ h.running
  change b.sequencerStep.getD b = _
  rw [sequencerStep, h.listening]
  dsimp only
  rw [if_neg hc, h.commands]
  rfl

inductive Steps (b : Broker) : Broker → Prop
  | idle (hl : b.sequencer.stage ≠ .listening) : Steps b b
  | pump (hl : b.sequencer.stage = .pumping) (hb : b.breaks = false) : Steps b b.pumpStep
  | breakDown (hl : b.sequencer.stage = .pumping) (hb : b.breaks = true) : Steps b b.breakDown
  | stop (hl : b.sequencer.stage = .listening) (hc : b.cancelled = true) : Steps b b.stopSequencer
  | take {q : Command} {rest : List Command} (hq : b.TakesUp q rest) :
    Steps b (({ b with sequencer := { b.sequencer with commands := rest } }).handle q)
  | watch (hl : b.sequencer.stage = .listening) (hc : b.cancelled = false)
      (hq : b.sequencer.commands = []) (h : b.sweep = none) : Steps b b
  | sweep {b' : Broker} (hl : b.sequencer.stage = .listening) (hc : b.cancelled = false)
      (hq : b.sequencer.commands = []) (h : b.sweep = some b') : Steps b b'

theorem steps_act (b : Broker) : b.Steps (b.act (.work .sequencer)) := by
  change b.Steps (b.sequencerStep.getD b)
  rw [sequencerStep]
  cases hl : b.sequencer.stage with
  | pumping =>
    cases hb : b.breaks with
    | true => exact (pumpStep_of_breaks hb).symm ▸ .breakDown hl hb
    | false => exact .pump hl hb
  | listening =>
    dsimp only
    by_cases hc : b.cancelled = true
    · rw [if_pos hc]
      exact .stop hl hc
    · rw [if_neg hc]
      rw [Bool.not_eq_true] at hc
      cases hq : b.sequencer.commands with
      | cons q rest => exact .take ⟨hl, hc, hq⟩
      | nil =>
        cases h : b.sweep with
        | none => exact .watch hl hc hq h
        | some b' => exact .sweep hl hc hq h
  | _ => exact .idle (by simp [hl])

theorem attends_same {a : Action} (h : b.departing a = []) (hd : (b.act a).desk = b.desk)
    (hs : (b.act a).sequencer = b.sequencer) : b.Attends a (b.act a).counter := by
  rw [counter_eq hd hs]
  exact .same h

section Requests

theorem attends_post {a : Action} {p : Publication} {f : Option Receiver}
    (h : b.departing a = []) (ha : b.act a = (b.post p f).2) : b.Attends a (b.act a).counter := by
  have hd : (b.act a).desk = b.desk := ha ▸ b.desk_post p f
  cases hp : b.post p f with
  | mk result b' =>
    rw [hp] at ha
    replace ha : b.act a = b' := ha
    cases result with
    | error e => exact attends_same h hd (congrArg View.sequencer (ha ▸ post_refused hp))
    | ok receipt =>
      obtain ⟨w, hq, hv⟩ := post_admitted hp
      have hs : (b.act a).sequencer = w.sequencer := congrArg View.sequencer (ha ▸ hv)
      cases hq.sends with
      | inl hw => exact attends_same h hd (hs.trans hw)
      | inr hw =>
        obtain ⟨c, -, hw⟩ := hw
        have hcounter : (b.act a).counter =
            { b.counter with commands := b.sequencer.commands ++ [.enqueue c] } := by
          have hc : (b.act a).calls = b.calls := congrArg Desk.calls hd
          have hn : (b.act a).callsBegun = b.callsBegun := congrArg Desk.begun hd
          rw [counter, takesCommands, hc, hn, hs.trans hw]
          rfl
        rw [hcounter]
        exact .send h rfl

theorem attends_ask {a : Action} {w : Waiting} {command : Nat → Command} {otherwise : Response}
    (h : b.departing a = []) (hw : w.leaving = []) (hq : ∀ k, w.Asks k (command k))
    (ha : b.act a = (b.ask w command otherwise).2) : b.Attends a (b.act a).counter := by
  rw [ha, ask]
  split
  · rename_i ht
    exact .ask ht (hw.trans h.symm) (hq _)
  · exact .same h

theorem retire_nil (k : Nat) (cause : Departure) (total : Nat) (b : Broker) :
    (retire k cause total [] b).2.counter = { b.counter with calls := b.calls.erase k } := by
  cases cause with
  | unsubscribed => rfl
  | ownerDied pid =>
    simp only [retire, allDeparted]
    split <;> rfl

theorem retire_open {k : Nat} (ht : b.takesCommands = true) (cause : Departure) (total : Nat)
    (s : Subscriber) (rest : List Subscriber) :
    ∃ dropped, (retire k cause total (s :: rest) b).2.counter = { b.counter with
      calls := b.calls.insert k { waiting := .retire ⟨cause, total, s, dropped, rest⟩ }
      commands := b.sequencer.commands ++ [.release s.id k] } := by
  rw [retire]
  dsimp only
  rw [if_pos (show
    ({ b with vault := (b.vault.purge s.id).2 } : Broker).takesCommands = true from ht)]
  exact ⟨_, rfl⟩

theorem retire_closed {k : Nat} (ht : b.takesCommands = false) (cause : Departure) (total : Nat)
    (leaving : List Subscriber) :
    (retire k cause total leaving b).2.counter = { b.counter with calls := b.calls.erase k } := by
  induction leaving generalizing b with
  | nil => exact retire_nil k cause total b
  | cons s rest ih =>
    have htaken : ¬({ b with vault := (b.vault.purge s.id).2 } : Broker).takesCommands = true :=
      fun h => Bool.false_ne_true (ht.symm.trans h)
    rw [retire]
    dsimp only
    rw [if_neg htaken]
    exact ih ht

theorem attends_beginRetiring {a : Action} (cause : Departure) (registry : Registry)
    (ha : b.act a = ({ b with registry }.beginRetiring cause (b.departing a)).2) :
    b.Attends a (b.act a).counter := by
  rw [ha, beginRetiring]
  cases hl : b.departing a with
  | nil =>
    rw [retire_nil]
    exact .pass (.inl hl)
  | cons s rest =>
    cases ht : b.takesCommands with
    | false =>
      have hclosed := retire_closed (b := { b with registry, callsBegun := b.callsBegun + 1 })
        (k := b.callsBegun + 1) ht cause (s :: rest).length (s :: rest)
      rw [hclosed]
      exact .pass (.inr ht)
    | true =>
      obtain ⟨dropped, hopen⟩ := retire_open
        (b := { b with registry, callsBegun := b.callsBegun + 1 }) (k := b.callsBegun + 1) ht cause
        (s :: rest).length s rest
      rw [hopen]
      exact .ask ht hl.symm (.retire _)

theorem attends_shutdown : b.Attends .shutdown (b.act .shutdown).counter := by
  rw [act, shutdown]
  generalize (if b.joined = true then [] else b.workers) = ws
  dsimp only
  split
  · exact .same rfl
  · exact .wait ws rfl

theorem counter_departed (s : Subscriber) (dropped : Nat) (released : Bool) (reason : String) :
    (b.departed s dropped released reason).counter = b.counter :=
  counter_eq (b.desk_departed _ _ _ _) rfl

theorem counter_proceed (ht : b.takesCommands = true) (k : Nat) {ret : Retirement}
    (hl : ret.rest ≠ []) (released : Bool) :
    ∃ ret' : Retirement, ret.rest = ret'.current :: ret'.rest ∧
      (retire k ret.cause ret.total ret.rest
        (b.departed ret.current ret.dropped released ret.cause.reason)).2.counter = { b.counter with
          calls := b.calls.insert k { waiting := .retire ret' }
          commands := b.sequencer.commands ++ [.release ret'.current.id k] } := by
  have hd := b.counter_departed ret.current ret.dropped released ret.cause.reason
  generalize b.departed ret.current ret.dropped released ret.cause.reason = b' at hd ⊢
  have hcalls : b'.calls = b.calls := congrArg Counter.calls hd
  have hcommands : b'.sequencer.commands = b.sequencer.commands := congrArg Counter.commands hd
  have htaking : b'.takesCommands = b.takesCommands := congrArg Counter.taking hd
  obtain ⟨s, rest, hl⟩ := List.exists_cons_of_ne_nil hl
  obtain ⟨dropped, hopen⟩ := retire_open (b := b') (k := k) (htaking.trans ht) ret.cause ret.total
    s rest
  refine ⟨⟨ret.cause, ret.total, s, dropped, rest⟩, hl, ?_⟩
  rw [hl, hopen, hd, hcalls, hcommands]

theorem attends_proceed {k : Nat} {ret : Retirement} {answer : Answer}
    (hk : b.calls.get? k = some ⟨.retire ret, some answer⟩) (released : Bool) :
    b.Attends (.resume k) (retire k ret.cause ret.total ret.rest
      (b.departed ret.current ret.dropped released ret.cause.reason)).2.counter := by
  have hd := b.counter_departed ret.current ret.dropped released ret.cause.reason
  by_cases hl : ret.rest = []
  · rw [hl, retire_nil, hd, show (b.departed _ _ _ _).calls = _ from congrArg Counter.calls hd]
    exact .conclude rfl hk (.inl (Option.some_ne_none _)) (.inl hl)
  · cases ht : b.takesCommands with
    | false =>
      have ht' := (congrArg Counter.taking hd).trans ht
      rw [retire_closed ht', hd, show (b.departed _ _ _ _).calls = _ from congrArg Counter.calls hd]
      exact .conclude rfl hk (.inl (Option.some_ne_none _)) (.inr ht)
    | true =>
      obtain ⟨ret', hr, hc⟩ := counter_proceed ht k hl released
      rw [hc]
      exact .proceed rfl ht hk hr

theorem attends_resume (k : Nat) : b.Attends (.resume k) (b.act (.resume k)).counter := by
  rw [act, resume]
  cases hk : b.calls.get? k with
  | none => exact .same rfl
  | some c =>
    obtain ⟨waiting, answer⟩ := c
    cases waiting with
    | finish =>
      cases answer with
      | none => exact .same rfl
      | some x => cases x <;> exact .conclude rfl hk (.inl (Option.some_ne_none _)) (.inl rfl)
    | active =>
      cases answer with
      | none => exact .same rfl
      | some x => cases x <;> exact .conclude rfl hk (.inl (Option.some_ne_none _)) (.inl rfl)
    | retire ret =>
      cases answer with
      | none => exact .same rfl
      | some x => cases x <;> exact attends_proceed hk _
    | shutdown ws =>
      dsimp only
      split
      · exact .conclude rfl hk (.inr ⟨ws, rfl⟩) (.inl rfl)
      · exact .same rfl

end Requests

section Work

theorem counter_of_moves {es : List ChainEvent} (hc : b'.calls = b.calls)
    (hn : b'.callsBegun = b.callsBegun) (h : b.view.Moves es b'.view)
    (hl : b.sequencer.stage ≠ .listening) (hs : b.sequencer.stage ≠ .stopped)
    (hb : b.sequencer.stage = .pumping → b.breaks = false) : b'.counter = b.counter := by
  obtain ⟨hq, hs'⟩ := h.commands_eq hl hb
  replace hq : b'.sequencer.commands = b.sequencer.commands := hq
  have ht : b'.takesCommands = b.takesCommands := by
    rw [b'.takesCommands_iff.2 hs', b.takesCommands_iff.2 hs]
  rw [counter, counter, hc, hn, hq, ht]

theorem counter_handle (q : Command) (ht : b.takesCommands = true) :
    (b.handle q).counter =
      { b.counter with calls := (b.desk.answer q (b.reply q)).calls } := by
  have hd := b.desk_handle q
  have hc : (b.handle q).calls = (b.desk.answer q (b.reply q)).calls := congrArg Desk.calls hd
  have hn : (b.handle q).callsBegun = b.callsBegun := by
    have hn := congrArg Desk.begun hd
    rwa [Desk.begun_answer] at hn
  have hs : (b.handle q).sequencer.commands = b.sequencer.commands ∧
      ((b.handle q).sequencer.stage = b.sequencer.stage ∨
        (b.handle q).sequencer.stage = .pumping) := by
    cases q with
    | enqueue c => exact ⟨rfl, .inr rfl⟩
    | finish r code data abort k =>
      rw [handle]
      split
      · exact ⟨rfl, .inl rfl⟩
      · split
        · exact ⟨rfl, .inr rfl⟩
        · exact ⟨rfl, .inl rfl⟩
    | release r k =>
      rw [handle]
      split
      · exact ⟨rfl, .inl rfl⟩
      · split
        · exact ⟨rfl, .inr rfl⟩
        · exact ⟨rfl, .inl rfl⟩
    | active r k => exact ⟨rfl, .inl rfl⟩
  have ht' : (b.handle q).takesCommands = b.takesCommands := by
    rw [ht, takesCommands_iff]
    obtain h | h := hs.2
    · rw [h]
      exact b.takesCommands_iff.1 ht
    · simp [h]
  rw [counter, hc, hn, hs.1, ht', counter]

theorem counter_sweep (h : b.sweep = some b') (ht : b.takesCommands = true) :
    b'.counter = b.counter := by
  have hd := desk_sweep h
  have hc : b'.calls = b.calls := congrArg Desk.calls hd
  have hn : b'.callsBegun = b.callsBegun := congrArg Desk.begun hd
  have hs : b'.sequencer.commands = b.sequencer.commands ∧ b'.sequencer.stage = .pumping := by
    cases sweep_cases h <;> exact ⟨rfl, rfl⟩
  have ht' : b'.takesCommands = b.takesCommands := by
    rw [ht, takesCommands_iff, hs.2]
    exact SequencerStage.noConfusion
  rw [counter, hc, hn, hs.1, ht', counter]

theorem counter_of_stopped (hd : b'.desk = b.desk.forget b.sequencer.commands)
    (hv : b'.view = { b.view with
      sequencer := { b.view.sequencer with commands := [], stage := .stopped } }) :
    b'.counter = { b.counter with
      calls := (b.desk.forget b.sequencer.commands).calls
      commands := []
      taking := false } := by
  have hs : b'.sequencer = { b.sequencer with commands := [], stage := .stopped } :=
    congrArg View.sequencer hv
  have hn : b'.callsBegun = b.callsBegun := (congrArg Desk.begun hd).trans (b.desk.begun_forget _)
  rw [counter, takesCommands, hs, hn, show b'.calls = _ from congrArg Desk.calls hd, counter]

theorem Steps.attends (h : b.Steps b') : b.Attends (.work .sequencer) b'.counter := by
  cases h with
  | pump hl hb =>
    obtain ⟨es, hm⟩ := b.pumpStep_cases.moves hl
    have hd := b.pumpStep_cases.desk_eq hb
    have hc := counter_of_moves (congrArg Desk.calls hd) (congrArg Desk.begun hd) hm
      (by simp [hl]) (by simp [hl]) fun _ => hb
    rw [hc]
    exact .same rfl
  | breakDown hl hb =>
    rw [counter_of_stopped b.desk_breakDown b.view_breakDown]
    exact .breakDown rfl hl hb
  | stop hl hcancelled =>
    rw [counter_of_stopped b.desk_stopSequencer b.view_stopSequencer]
    exact .stop rfl hl hcancelled
  | @take q rest hq =>
    have ht : b.takesCommands = true := b.takesCommands_iff.2 (by simp [hq.listening])
    have hc := counter_handle (b := { b with
      sequencer := { b.sequencer with commands := rest } }) q ht
    rw [hc]
    exact .take rfl hq
  | sweep hl hc hq h =>
    rw [counter_sweep h (b.takesCommands_iff.2 (by simp [hl]))]
    exact .same rfl
  | _ => exact .same rfl

theorem attends_sequencerConclude (reception : Reception) :
    b.Attends (.handedOff .sequencer reception)
      (b.act (.handedOff .sequencer reception)).counter := by
  change b.Attends _ (b.sequencerConclude reception.result).counter
  generalize reception.result = result
  have hd := b.desk_sequencerConclude result
  have settled : b.sequencer.stage ≠ .listening → b.sequencer.stage ≠ .stopped →
      b.sequencer.stage ≠ .pumping → (∃ es, b.view.Moves es (b.sequencerConclude result).view) →
      b.Attends (.handedOff .sequencer reception) (b.sequencerConclude result).counter := by
    intro hl hs hp hm
    obtain ⟨es, hm⟩ := hm
    rw [counter_of_moves (congrArg Desk.calls hd) (congrArg Desk.begun hd) hm hl hs
      fun h => absurd h hp]
    exact .same rfl
  cases hs : b.sequencer.stage with
  | handing n i =>
    exact settled (by simp [hs]) (by simp [hs]) (by simp [hs]) (b.handing_moves hs result)
  | closing n c reason =>
    exact settled (by simp [hs]) (by simp [hs]) (by simp [hs]) (b.closing_moves hs result)
  | _ =>
    rw [sequencerConclude, hs]
    exact .same rfl

end Work

theorem attends_act (b : Broker) (a : Action) : b.Attends a (b.act a).counter := by
  cases a with
  | subscribe req =>
    cases h : b.subscribe req with
    | mk result b' =>
      have hact : b.act (.subscribe req) = b' := congrArg Prod.snd h
      refine attends_same rfl (b.desk_subscribe req) ?_
      rw [hact]
      cases result with
      | error e => exact congrArg View.sequencer (subscribe_refused h)
      | ok id =>
        obtain ⟨s, -, -, ps, -, hv⟩ := subscribe_admitted h
        exact congrArg View.sequencer hv
  | publish p => exact attends_post rfl rfl
  | publishWithResult p receiver => exact attends_post rfl rfl
  | updateFreeze sel frozen =>
    exact attends_same rfl (b.desk_updateFreeze sel frozen)
      (congrArg View.sequencer (b.updateFreeze_view sel frozen))
  | flushFrozen sel =>
    refine attends_same rfl (b.desk_flushFrozen sel) ?_
    by_cases h : (b.vault.flush sel).1 = []
    · exact congrArg (fun r => r.2.sequencer) (b.flushFrozen_nothing h)
    · cases hr : b.replay.refuses with
      | false => exact congrArg View.sequencer (b.flushFrozen_taken h hr)
      | true => exact congrArg View.sequencer (b.flushFrozen_refused h hr)
  | unsubscribe id =>
    cases h : b.registry.unsubscribe id with
    | none =>
      have hl : b.departing (.unsubscribe id) = [] := by
        rw [departing, leavers, h]
        rfl
      have hact : b.act (.unsubscribe id) = b := by
        rw [act, unsubscribe, h]
      rw [hact]
      exact .same hl
    | some x =>
      have hl : b.departing (.unsubscribe id) = [x.1] := by
        rw [departing, leavers, h]
        rfl
      refine attends_beginRetiring .unsubscribed x.2 ?_
      rw [hl, act, unsubscribe, h]
  | ownerDied pid => exact attends_beginRetiring (.ownerDied pid) _ rfl
  | finish r code data abort => exact attends_ask rfl rfl (fun k => .finish r code data abort) rfl
  | active r => exact attends_ask rfl rfl (fun k => .active r) rfl
  | shutdown => exact attends_shutdown
  | resume k => exact attends_resume k
  | work w =>
    cases w with
    | sequencer => exact b.steps_act.attends
    | listener =>
      cases h : b.listenerStep with
      | none =>
        rw [act, work, h]
        exact .same rfl
      | some b' =>
        have hact : b.act (.work .listener) = b' := by
          rw [act, work, h]
          rfl
        exact attends_same rfl (hact ▸ desk_listenerStep h)
          (hact ▸ congrArg View.sequencer (listenerStep_view h))
    | observer i =>
      cases h : b.observerStep i with
      | none =>
        rw [act, work, h]
        exact .same rfl
      | some b' =>
        have hact : b.act (.work (.observer i)) = b' := by
          rw [act, work, h]
          rfl
        exact attends_same rfl (hact ▸ desk_observerStep h)
          (hact ▸ congrArg View.sequencer (observerStep_view h))
    | courier lane =>
      cases h : b.courierStep lane with
      | none =>
        rw [act, work, h]
        exact .same rfl
      | some b' =>
        have hact : b.act (.work (.courier lane)) = b' := by
          rw [act, work, h]
          rfl
        exact attends_same rfl (hact ▸ desk_courierStep h)
          (hact ▸ (courierStep_carries h).sequencer_eq)
  | handedOff w reception =>
    cases w with
    | sequencer => exact attends_sequencerConclude reception
    | courier lane =>
      refine attends_same rfl (b.desk_courierConclude lane reception.result) ?_
      cases b.courierConclude_carries lane reception.result with
      | inl hv => exact congrArg View.sequencer hv
      | inr hv => exact hv.2.sequencer_eq
    | _ => exact .same rfl
  | observed i panic =>
    exact attends_same rfl (b.desk_observerConclude i panic)
      (congrArg View.sequencer (b.observerConclude_view i panic))
  | tick now => exact .same rfl
  | setOracle o => exact .same rfl

end Broker

/-- Every command that is to be answered has its call waiting for it, and every call that the
sequencer has still to answer its command. -/
structure Counter.Sound (c : Counter) : Prop where
  begun : ∀ k call, c.calls.get? k = some call → k ≤ c.begun
  distinct : (c.commands.filterMap Command.caller?).Nodup
  asked : ∀ q ∈ c.commands, ∀ k, q.caller? = some k → ∃ w : Waiting,
    c.calls.get? k = some ⟨w, none⟩ ∧ w.Asks k q
  heard : c.taking = true → ∀ k w, c.calls.get? k = some ⟨w, none⟩ → (∀ ws, w ≠ .shutdown ws) →
    ∃ q ∈ c.commands, q.caller? = some k

theorem Waiting.Asks.ne_shutdown {k : Nat} {w : Waiting} {q : Command} (h : w.Asks k q) :
    ∀ ws, w ≠ .shutdown ws := by
  cases h <;> exact fun _ => Waiting.noConfusion

namespace Counter.Sound

variable {c : Counter} {k : Nat}

theorem next_ne (h : c.Sound) {call : Call} (hk : c.calls.get? k = some call) :
    c.begun + 1 ≠ k := by
  rintro rfl
  exact Nat.not_succ_le_self _ (h.begun _ _ hk)

theorem not_begun (h : c.Sound) : c.calls.get? (c.begun + 1) = none := by
  rw [Option.eq_none_iff_forall_ne_some]
  exact fun call hk => h.next_ne hk rfl

theorem answer_eq_none (h : c.Sound) {call : Call} (hk : c.calls.get? k = some call)
    (hc : k ∈ c.commands.filterMap Command.caller?) :
    call.answer = none ∧ ∀ ws, call.waiting ≠ .shutdown ws := by
  obtain ⟨q, hq, hk'⟩ := List.mem_filterMap.1 hc
  obtain ⟨w, hw, hasks⟩ := h.asked q hq k hk'
  cases hk.symm.trans hw
  exact ⟨rfl, hasks.ne_shutdown⟩

theorem not_caller (h : c.Sound) (hk : c.calls.get? k = none) :
    k ∉ c.commands.filterMap Command.caller? := by
  intro hc
  obtain ⟨q, hq, hk'⟩ := List.mem_filterMap.1 hc
  obtain ⟨w, hw, -⟩ := h.asked q hq k hk'
  cases hk.symm.trans hw

theorem caller_ne (h : c.Sound) {q q' : Command} {rest : List Command}
    (hc : c.commands = q :: rest) (hq : q' ∈ rest) (hk : q'.caller? = some k) :
    q.caller? ≠ some k := by
  intro hk'
  have hdistinct := h.distinct
  rw [hc, List.filterMap_cons_some hk', List.nodup_cons] at hdistinct
  exact hdistinct.1 (List.mem_filterMap.2 ⟨q', hq, hk⟩)

theorem send (h : c.Sound) {begun : Nat} (hb : c.begun ≤ begun) (hk : k ≤ begun) {w : Waiting}
    {q : Command} (hq : w.Asks k q) (hc : k ∉ c.commands.filterMap Command.caller?) :
    Counter.Sound { c with
      calls := c.calls.insert k { waiting := w }, begun, commands := c.commands ++ [q] } where
  begun := by
    intro k' call hk'
    rw [Table.get?_insert] at hk'
    split at hk'
    · rename_i he
      exact he ▸ hk
    · exact Nat.le_trans (h.begun _ _ hk') hb
  distinct := by
    rw [List.filterMap_append, List.nodup_append]
    refine ⟨h.distinct, by simp [hq.caller], ?_⟩
    intro x hx y hy hxy
    rw [List.filterMap_cons_some hq.caller] at hy
    cases List.mem_singleton.1 hy
    exact hc (hxy ▸ hx)
  asked := by
    intro q' hq' k' hk'
    cases List.mem_append.1 hq' with
    | inl hq' =>
      have hne : k ≠ k' := by
        rintro rfl
        exact hc (List.mem_filterMap.2 ⟨q', hq', hk'⟩)
      rw [Table.get?_insert, if_neg hne]
      exact h.asked q' hq' k' hk'
    | inr hq' =>
      cases List.mem_singleton.1 hq'
      cases hq.caller.symm.trans hk'
      rw [Table.get?_insert, if_pos rfl]
      exact ⟨w, rfl, hq⟩
  heard := by
    intro ht k' w' hk' hw'
    rw [Table.get?_insert] at hk'
    split at hk'
    · rename_i he
      exact ⟨q, List.mem_append_right _ List.mem_cons_self, he ▸ hq.caller⟩
    · obtain ⟨q', hq', hc'⟩ := h.heard ht k' w' hk' hw'
      exact ⟨q', List.mem_append_left _ hq', hc'⟩

theorem erase (h : c.Sound) {begun : Nat} (hb : c.begun ≤ begun)
    (hc : k ∉ c.commands.filterMap Command.caller?) :
    Counter.Sound { c with calls := c.calls.erase k, begun } where
  begun := by
    intro k' call hk'
    rw [Table.get?_erase] at hk'
    split at hk'
    · cases hk'
    · exact Nat.le_trans (h.begun _ _ hk') hb
  distinct := h.distinct
  asked := by
    intro q' hq' k' hk'
    have hne : k ≠ k' := by
      rintro rfl
      exact hc (List.mem_filterMap.2 ⟨q', hq', hk'⟩)
    rw [Table.get?_erase, if_neg hne]
    exact h.asked q' hq' k' hk'
  heard := by
    intro ht k' w' hk' hw'
    rw [Table.get?_erase] at hk'
    split at hk'
    · cases hk'
    · exact h.heard ht k' w' hk' hw'

end Counter.Sound

namespace Broker

variable {b : Broker}

theorem counter_start (config : Config) (oracle : Oracle) (bundleOf : Uid → Option String)
    (observers : List Observer) : (start config oracle bundleOf observers).counter.Sound where
  begun := by
    intro k call hk
    cases hk
  distinct := .nil
  asked := by
    intro q hq
    cases hq
  heard := by
    intro ht k w hk
    cases hk

theorem Attends.sound {a : Action} {c : Counter} (ha : b.Attends a c) (h : b.counter.Sound) :
    c.Sound := by
  -- A new call has a new number, and no command is for that yet.
  have hnew := h.not_caller h.not_begun
  cases ha with
  | same hd => exact h
  | @send q hd hq =>
    have hcallers : (b.sequencer.commands ++ [q]).filterMap Command.caller? =
        b.sequencer.commands.filterMap Command.caller? := by
      simp [hq]
    refine ⟨h.begun, hcallers ▸ h.distinct, ?_, ?_⟩
    · intro q' hq' k hk
      cases List.mem_append.1 hq' with
      | inl hq' => exact h.asked q' hq' k hk
      | inr hq' =>
        cases List.mem_singleton.1 hq'
        cases hq.symm.trans hk
    · intro ht k w hk hw
      obtain ⟨q', hq', hc⟩ := h.heard ht k w hk hw
      exact ⟨q', List.mem_append_left _ hq', hc⟩
  | ask ht hw hq => exact h.send (Nat.le_succ _) (Nat.le_refl _) hq hnew
  | pass hd => exact h.erase (Nat.le_succ _) hnew
  | wait ws hd =>
    refine ⟨?_, h.distinct, ?_, ?_⟩
    · intro k call hk
      rw [Table.get?_insert] at hk
      split at hk
      · rename_i he
        exact Nat.le_of_eq he.symm
      · exact Nat.le_succ_of_le (h.begun _ _ hk)
    · intro q hq k hk
      have hne : b.callsBegun + 1 ≠ k := by
        rintro rfl
        exact hnew (List.mem_filterMap.2 ⟨q, hq, hk⟩)
      rw [Table.get?_insert, if_neg hne]
      exact h.asked q hq k hk
    · intro ht k w hk hw
      rw [Table.get?_insert] at hk
      split at hk
      · cases hk
        exact absurd rfl (hw ws)
      · exact h.heard ht k w hk hw
  | @conclude k call ha hk hc hl =>
    refine h.erase (Nat.le_refl _) ?_
    intro hcaller
    obtain ⟨hnone, hws⟩ := h.answer_eq_none hk hcaller
    obtain hc | ⟨ws, hc⟩ := hc
    · exact hc hnone
    · exact hws ws hc
  | @proceed k ret ret' answer ha ht hk hr =>
    refine h.send (Nat.le_refl _) (h.begun _ _ hk) (.retire ret') ?_
    intro hcaller
    cases (h.answer_eq_none hk hcaller).1
  | @take q rest ha hq =>
    have hcommands : b.counter.commands = q :: rest := hq.commands
    have hdistinct := h.distinct
    rw [hcommands] at hdistinct
    have others : ∀ q' ∈ rest, ∀ k, q'.caller? = some k → q.caller? ≠ some k :=
      fun q' hq' k => h.caller_ne hcommands hq'
    refine ⟨?_, hdistinct.sublist ((List.sublist_cons_self q rest).filterMap _), ?_, ?_⟩
    · intro k call hk
      rw [Desk.get?_answer] at hk
      split at hk
      · obtain ⟨call', hk, -⟩ := Option.map_eq_some_iff.1 hk
        exact h.begun k call' hk
      · exact h.begun k call hk
    · intro q' hq' k hk
      rw [Desk.get?_answer, if_neg (others q' hq' k hk)]
      exact h.asked q' (hcommands ▸ List.mem_cons_of_mem q hq') k hk
    · intro ht k w hk hw
      rw [Desk.get?_answer] at hk
      split at hk
      · obtain ⟨call', -, he⟩ := Option.map_eq_some_iff.1 hk
        cases he
      · rename_i hne
        obtain ⟨q', hq', hk'⟩ := h.heard ht k w hk hw
        rw [hcommands] at hq'
        cases List.mem_cons.1 hq' with
        | inl he => exact absurd (he ▸ hk') hne
        | inr hq' => exact ⟨q', hq', hk'⟩
  | stop ha hs | breakDown ha hs =>
    refine ⟨?_, .nil, ?_, ?_⟩
    · intro k call hk
      rw [Desk.get?_forget] at hk
      split at hk
      · obtain ⟨call', hk, -⟩ := Option.map_eq_some_iff.1 hk
        exact h.begun k call' hk
      · exact h.begun k call hk
    · intro q hq
      cases hq
    · intro ht
      cases ht

theorem counter_act (h : b.counter.Sound) (a : Action) : (b.act a).counter.Sound :=
  (b.attends_act a).sound h

theorem counter_run (h : b.counter.Sound) (actions : List Action) :
    (b.run actions).counter.Sound := by
  induction actions generalizing b with
  | nil => exact h
  | cons a rest ih => exact ih (counter_act h a)

end Broker

end EventBroker
