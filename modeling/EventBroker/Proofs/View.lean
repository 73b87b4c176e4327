import EventBroker.Broker.Work

/-! What a broker's work depends on, without its bus, log, observers and calls. Each operation is
described by what it does to this view. -/

namespace EventBroker

/-- What the history tells of ordered chains and of notifications. -/
inductive Signal
  | started (chain : Option ChainId)
  | finished (chain : Option ChainId) (reason : Option String)
  | notifying (n : Notice)
  | notified (n : Notice) (result : Except DeliveryError Unit)

def Record.signal? (r : Record) : Option Signal :=
  match r.kind with
  | .chainStarted => some (.started r.chain)
  | .chainFinished => some (.finished r.chain r.reason)
  | _ => none

theorem Record.signal?_eq_none {r : Record} (hs : r.kind ≠ .chainStarted)
    (hf : r.kind ≠ .chainFinished) : r.signal? = none := by
  unfold signal?
  split
  · contradiction
  · contradiction
  · rfl

namespace Record

variable (r : Record)

@[simp] theorem kind_setEvent (name : String) : (r.setEvent name).kind = r.kind := (rfl)

@[simp] theorem kind_setSubscriber (id : SubscriberId) : (r.setSubscriber id).kind = r.kind := (rfl)

@[simp] theorem kind_setPid (pid : Pid) : (r.setPid pid).kind = r.kind := (rfl)

@[simp] theorem kind_setChain (id : ChainId) : (r.setChain id).kind = r.kind := (rfl)

@[simp] theorem kind_setCount (n : Nat) : (r.setCount n).kind = r.kind := (rfl)

@[simp] theorem kind_setTimeout (d : Duration) : (r.setTimeout d).kind = r.kind := (rfl)

@[simp] theorem kind_setReason (reason : String) : (r.setReason reason).kind = r.kind := (rfl)

@[simp] theorem kind_withChain (id : Option ChainId) : (Broker.withChain r id).kind = r.kind := by
  cases id <;> rfl

end Record

def Occurrence.signal? : Occurrence → Option Signal
  | .record r => r.signal?
  | .notifying _ n => some (.notifying n)
  | .notified _ n result => some (.notified n result)
  | _ => none

structure View where
  config : Config
  oracle : Oracle
  bundleOf : Uid → Option String
  now : Instant
  registry : Registry
  vault : Vault Copy
  sticky : StickyStore
  fresh : DeliveryQueue
  replay : DeliveryQueue
  sequencer : Sequencer
  publications : Nat
  chains : Nat
  cancelled : Bool
  signals : List Signal

namespace View

variable (v : View)

def queue : Lane → DeliveryQueue
  | .fresh => v.fresh
  | .replay => v.replay

def setQueue (lane : Lane) (q : DeliveryQueue) : View :=
  match lane with
  | .fresh => { v with fresh := q }
  | .replay => { v with replay := q }

def tell (s : Signal) : View := { v with signals := v.signals ++ [s] }

def send (commands : List Command) : View :=
  { v with sequencer := { v.sequencer with commands := v.sequencer.commands ++ commands } }

@[simp] theorem send_nil : v.send [] = v := by
  simp [send]

end View

def Command.chain? : Command → Option Chain
  | .enqueue c => some c
  | _ => none

namespace Broker

variable (b : Broker)

theorem takesCommands_iff : b.takesCommands = true ↔ b.sequencer.stage ≠ .stopped := by
  unfold takesCommands
  cases b.sequencer.stage <;> simp

def signals : List Signal := b.history.filterMap fun o => o.2.signal?

def view : View where
  config := b.config
  oracle := b.oracle
  bundleOf := b.bundleOf
  now := b.now
  registry := b.registry
  vault := b.vault
  sticky := b.sticky
  fresh := b.fresh
  replay := b.replay
  sequencer := b.sequencer
  publications := b.publications
  chains := b.chains
  cancelled := b.cancelled
  signals := b.signals

theorem signals_note (o : Occurrence) :
    (b.note o).signals = b.signals ++ o.signal?.toList := by
  simp only [signals, history_note, List.filterMap_append]
  cases h : o.signal? with
  | none => simp [h]
  | some s => simp [h]

theorem view_note_silent (o : Occurrence) (h : o.signal? = none) : (b.note o).view = b.view := by
  have hs : (b.note o).signals = b.signals := by
    simp [signals_note, h]
  rw [view, hs]
  rfl

theorem view_note_signal (o : Occurrence) {s : Signal} (h : o.signal? = some s) :
    (b.note o).view = b.view.tell s := by
  have hs : (b.note o).signals = b.signals ++ [s] := by
    simp [signals_note, h]
  rw [view, hs]
  rfl

@[simp] theorem view_log (l : LogLine) : (b.log l).view = b.view :=
  b.view_note_silent _ rfl

@[simp] theorem view_emit_silent (r : Record) (hs : r.kind ≠ .chainStarted)
    (hf : r.kind ≠ .chainFinished) : (b.emit r).view = b.view :=
  view_note_silent _ _ (Record.signal?_eq_none hs hf)

theorem view_emit_signal (r : Record) {s : Signal} (h : r.signal? = some s) :
    (b.emit r).view = b.view.tell s :=
  view_note_signal _ _ h

@[simp] theorem view_answer (caller : Nat) (a : Answer) : (b.answer caller a).view = b.view := rfl

@[simp] theorem view_endCall (call : Nat) : (b.endCall call).view = b.view := rfl

@[simp] theorem view_setStage (s : SequencerStage) :
    (b.setStage s).view = { b.view with sequencer := { b.view.sequencer with stage := s } } := rfl

@[simp] theorem view_setActive (c : Option Chain) :
    (b.setActive c).view = { b.view with sequencer := { b.view.sequencer with active := c } } := rfl

@[simp] theorem view_send (c : Command) :
    (b.send c).view = { b.view with
      sequencer := { b.view.sequencer with commands := b.view.sequencer.commands ++ [c] } } := by
  rw [send, view_note_silent _ _ rfl]
  rfl

@[simp] theorem view_forget (c : Command) : (b.forget c).view = b.view := by
  cases c <;> rfl

@[simp] theorem view_deliveryFailed (s : Subscriber) (copy : Copy) (chain : Option ChainId)
    (e : DeliveryError) : (b.deliveryFailed s copy chain e).view = b.view := by
  simp [deliveryFailed]

@[simp] theorem view_departed (s : Subscriber) (dropped : Nat) (released : Bool)
    (reason : String) : (b.departed s dropped released reason).view = b.view := by
  simp [departed]

end Broker

end EventBroker
