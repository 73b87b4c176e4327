import EventBroker.Proofs.VaultLaws
import EventBroker.Proofs.View

namespace EventBroker

namespace Broker

variable (b : Broker)

theorem ask_view (w : Waiting) (command : Nat → Command) (otherwise : Response)
    (h : ∀ call, (command call).chain? = none) :
    ∃ cs : List Command, (∀ c ∈ cs, c.chain? = none) ∧
      (b.ask w command otherwise).2.view = b.view.send cs := by
  rw [ask]
  split
  · refine ⟨[command (b.callsBegun + 1)], by simpa using h _, ?_⟩
    dsimp only
    rw [view_send]
    rfl
  · exact ⟨[], by simp, b.view.send_nil.symm⟩

def seenOff (leaving : List Subscriber) : List SubscriberId :=
  (if b.takesCommands then leaving.take 1 else leaving).map (·.id)

theorem retire_view (call : Nat) (cause : Departure) (total : Nat) (leaving : List Subscriber)
    (b : Broker) :
    ∃ cs : List Command, (∀ c ∈ cs, c.chain? = none) ∧
      (retire call cause total leaving b).2.view = { b.view with
        vault := b.vault.clear (b.seenOff leaving) }.send cs := by
  induction leaving generalizing b with
  | nil =>
    refine ⟨[], by simp, ?_⟩
    have hv : (b.allDeparted cause total).2.view = b.view := by
      cases cause with
      | unsubscribed => rfl
      | ownerDied pid =>
        simp only [allDeparted]
        split
        · rfl
        · exact b.view_log _
    have hs : b.seenOff [] = [] := by
      simp [seenOff]
    rw [retire, hs, View.send_nil]
    exact hv
  | cons s rest ih =>
    rw [retire]
    dsimp only
    split
    · rename_i ht
      replace ht : b.takesCommands = true := ht
      have hs : b.seenOff (s :: rest) = [s.id] := by
        rw [seenOff, if_pos ht]
        rfl
      refine ⟨[.release s.id call], by simp [Command.chain?], ?_⟩
      rw [view_send, hs]
      rfl
    · rename_i ht
      replace ht : ¬b.takesCommands = true := ht
      obtain ⟨cs, hcs, hv⟩ := ih
        (({ b with vault := (b.vault.purge s.id).2 }).departed s (b.vault.purge s.id).1 false
          cause.reason)
      have hd := ({ b with vault := (b.vault.purge s.id).2 }).view_departed s
        (b.vault.purge s.id).1 false cause.reason
      generalize hb' : ({ b with vault := (b.vault.purge s.id).2 }).departed s
        (b.vault.purge s.id).1 false cause.reason = b' at hv hd
      have hseq : b'.sequencer = b.sequencer := congrArg View.sequencer hd
      have hvault : b'.vault = (b.vault.purge s.id).2 := congrArg View.vault hd
      have ht' : ¬b'.takesCommands = true := by
        rwa [takesCommands, hseq]
      have hs : b.seenOff (s :: rest) = s.id :: b'.seenOff rest := by
        rw [seenOff, seenOff, if_neg ht, if_neg ht']
        rfl
      refine ⟨cs, hcs, hv.trans ?_⟩
      rw [hd, hs, hvault]
      rfl

def leavers (id : SubscriberId) : List Subscriber × Registry :=
  ((b.registry.unsubscribe id).map fun x => ([x.1], x.2)).getD ([], b.registry)

theorem unsubscribe_view (id : SubscriberId) :
    ∃ cs : List Command, (∀ c ∈ cs, c.chain? = none) ∧
      (b.unsubscribe id).2.view = { b.view with
        registry := (b.leavers id).2
        vault := b.vault.clear (b.seenOff (b.leavers id).1) }.send cs := by
  rw [unsubscribe, leavers]
  cases b.registry.unsubscribe id with
  | none =>
    refine ⟨[], by simp, ?_⟩
    have hs : b.seenOff [] = [] := by
      simp [seenOff]
    simp only [Option.map_none, Option.getD_none, hs, View.send_nil]
    rfl
  | some x => exact retire_view _ _ _ [x.1] _

theorem ownerDied_view (pid : Pid) :
    ∃ cs : List Command, (∀ c ∈ cs, c.chain? = none) ∧
      (b.ownerDied pid).2.view = { b.view with
        registry := (b.registry.removeOwner pid).2
        vault := b.vault.clear (b.seenOff (b.registry.removeOwner pid).1) }.send cs :=
  retire_view _ _ _ _ _

def stillLeaving (call : Nat) : List Subscriber :=
  match b.calls.get? call with
  | some { waiting := .retire r, answer := some _ } => r.rest
  | _ => []

theorem resume_view (call : Nat) (b : Broker) :
    ∃ cs : List Command, (∀ c ∈ cs, c.chain? = none) ∧
      (((b.resume call).map (·.2)).getD b).view = { b.view with
        vault := b.vault.clear (b.seenOff (b.stillLeaving call)) }.send cs := by
  have same : ∀ b' : Broker, b'.view = b.view → ∃ cs : List Command, (∀ c ∈ cs, c.chain? = none) ∧
      b'.view = { b.view with vault := b.vault.clear (b.seenOff []) }.send cs := by
    intro b' hb
    refine ⟨[], by simp, ?_⟩
    have hs : b.seenOff [] = [] := by
      simp [seenOff]
    rw [hs, View.send_nil, hb]
    rfl
  have seeOff : ∀ (r : Retirement) (released : Bool), ∃ cs : List Command,
      (∀ c ∈ cs, c.chain? = none) ∧
      (retire call r.cause r.total r.rest
        (b.departed r.current r.dropped released r.cause.reason)).2.view =
        { b.view with vault := b.vault.clear (b.seenOff r.rest) }.send cs := by
    intro r released
    obtain ⟨cs, hcs, hv⟩ := retire_view call r.cause r.total r.rest
      (b.departed r.current r.dropped released r.cause.reason)
    have hd := b.view_departed r.current r.dropped released r.cause.reason
    generalize b.departed r.current r.dropped released r.cause.reason = b' at hv hd
    have hseq : b'.sequencer = b.sequencer := congrArg View.sequencer hd
    have hvault : b'.vault = b.vault := congrArg View.vault hd
    refine ⟨cs, hcs, hv.trans ?_⟩
    rw [hd, hvault, seenOff, takesCommands, hseq]
    rfl
  rw [resume, stillLeaving]
  cases b.calls.get? call with
  | none => exact same b rfl
  | some c =>
    obtain ⟨waiting, answer⟩ := c
    cases waiting with
    | finish =>
      cases answer with
      | none => exact same b rfl
      | some a => cases a <;> exact same _ rfl
    | active =>
      cases answer with
      | none => exact same b rfl
      | some a => cases a <;> exact same _ rfl
    | retire r =>
      cases answer with
      | none => exact same b rfl
      | some a => cases a <;> exact seeOff r _
    | shutdown workers =>
      dsimp only
      split
      · exact same _ ((view_endCall _ _).trans (b.view_log _))
      · exact same b rfl

theorem shutdown_view : b.shutdown.2.view = { b.view with cancelled := true } := by
  have h : ∀ joined : Bool, (({ b with cancelled := true, joined }).note .cancelled).view =
      { b.view with cancelled := true } := by
    intro joined
    rw [view_note_silent _ _ rfl]
    rfl
  rw [shutdown]
  generalize (if b.joined = true then [] else b.workers) = ws
  dsimp only
  split
  · rw [view_log]
    exact h true
  · exact h true

end Broker

end EventBroker
