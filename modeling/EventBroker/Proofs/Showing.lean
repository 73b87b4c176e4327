import Mathlib.Data.List.Nodup
import EventBroker.Proofs.Rounds

namespace EventBroker

namespace ChainEvent

def reached? : ChainEvent → Option SubscriberId
  | signal (.notifying n) => n.subscriber.map Subscriber.id
  | held _ receiver _ => some receiver
  | _ => none

def result? : ChainEvent → Option (Int × String)
  | accepted _ _ code data _ => some (code, data)
  | _ => none

def aborts : ChainEvent → Bool
  | accepted _ _ _ _ abort => abort
  | _ => false

def Shows (copy : Copy) : ChainEvent → Prop
  | signal (.notifying n) => n.copy = copy
  | held _ _ item => item.map Prod.fst = some copy
  | _ => True

end ChainEvent

/-- The result that the latest accepted finish has left, `result` at first. -/
def latest (result : Int × String) (evs : List ChainEvent) : Int × String :=
  evs.foldl (fun result e => e.result?.getD result) result

def Publication.copyWith (p : Publication) (result : Int × String) : Copy :=
  ⟨p.serial, p.event.setResult result.1 result.2⟩

/-- Each event shows the publication with the result that the finishes before it have left. -/
def Faithful (p : Publication) : Int × String → List ChainEvent → Prop
  | _, [] => True
  | result, e :: rest =>
    e.Shows (p.copyWith result) ∧ Faithful p (e.result?.getD result) rest

def afterAbort : List ChainEvent → Option (List ChainEvent)
  | [] => none
  | e :: rest => if e.aborts then some rest else afterAbort rest

def aborted (chain : ChainId) (last : Option HandOff) : List ChainEvent :=
  (last.toList.flatMap HandOff.signals ++
    [Signal.finished (some chain) (some FinishReason.aborted.name)]).map ChainEvent.signal

theorem faithful_append {p : Publication} {result : Int × String} {xs ys : List ChainEvent} :
    Faithful p result (xs ++ ys) ↔ Faithful p result xs ∧ Faithful p (latest result xs) ys := by
  induction xs generalizing result with
  | nil =>
    rw [List.nil_append]
    exact (true_and _).symm ▸ Iff.rfl
  | cons e rest ih => 
    rw [List.cons_append, Faithful, Faithful, ih, and_assoc]
    rfl

theorem latest_append (result : Int × String) (xs ys : List ChainEvent) :
    latest result (xs ++ ys) = latest (latest result xs) ys :=
  List.foldl_append

theorem afterAbort_append {xs ys : List ChainEvent} :
    afterAbort (xs ++ ys) =
      match afterAbort xs with
      | none => afterAbort ys
      | some tail => some (tail ++ ys) := by
  induction xs with
  | nil => rfl
  | cons e rest ih =>
    rw [List.cons_append, afterAbort, afterAbort]
    split
    · rfl
    · exact ih

theorem afterAbort_append_ne_none {xs : List ChainEvent} (h : afterAbort xs ≠ none)
    (ys : List ChainEvent) : afterAbort (xs ++ ys) ≠ none := by
  rw [afterAbort_append]
  cases hx : afterAbort xs with
  | none => exact absurd hx h
  | some tail => simp

def Admission.result (a : Admission) : Int × String :=
  (a.publication.event.code, a.publication.event.data)

/-- The last hand-off is to the final receiver, if there is one, and to no subscription. -/
def Admission.Farewell (a : Admission) (last : Option HandOff) : Prop :=
  last.map (fun h => h.1.receiver) = a.finalReceiver ∧ ∀ h ∈ last, h.1.subscriber = none

structure Told (a : Admission) (evs : List ChainEvent) : Prop where
  faithful : Faithful a.publication a.result evs
  reached : (evs.filterMap ChainEvent.reached?).Sublist (a.matched.map Subscriber.id)

theorem Told.aside {a : Admission} {evs : List ChainEvent} (h : Told a evs) {e : ChainEvent}
    (hs : e.Shows (a.publication.copyWith (latest a.result evs))) (hr : e.reached? = none) :
    Told a (evs ++ [e]) where
  faithful := faithful_append.2 ⟨h.faithful, hs, trivial⟩
  reached := by
    rw [List.filterMap_append, List.filterMap_cons_none hr, List.filterMap_nil, List.append_nil]
    exact h.reached

namespace Chain

structure Alike (c c' : Chain) : Prop where
  id : c'.id = c.id
  receivers : c'.receivers = c.receivers
  final : c'.finalReceiver = c.finalReceiver
  copy : c'.copy = c.copy
  sticky : c'.sticky = c.sticky
  abort : c'.abort = c.abort
  cursor : c.cursor ≤ c'.cursor

variable {c c' : Chain} {r : SubscriberId} {now : Instant}

theorem Alike.refl (c : Chain) : c.Alike c :=
  ⟨rfl, rfl, rfl, rfl, rfl, rfl, Nat.le_refl _⟩

theorem alike_start (c : Chain) (now : Instant) : c.Alike (c.start now) :=
  ⟨rfl, rfl, rfl, rfl, rfl, rfl, Nat.le_refl _⟩

theorem alike_release (h : c.awaiting = some r) : c.Alike c.release.2 := by
  rw [release_of_awaiting h]
  exact ⟨rfl, rfl, rfl, rfl, rfl, rfl, Nat.le_refl _⟩

theorem alike_expire (h : c.awaiting = some r) : c.Alike c.expire.2 := by
  rw [expire_of_awaiting h]
  exact ⟨rfl, rfl, rfl, rfl, rfl, rfl, Nat.le_refl _⟩

theorem alike_expireReceiver (h : c.awaiting = some r) : c.Alike c.expireReceiver.2 := by
  rw [expireReceiver_of_awaiting h]
  exact ⟨rfl, rfl, rfl, rfl, rfl, rfl, Nat.le_refl _⟩

theorem alike_skip (c : Chain) : c.Alike c.skip := by
  rw [skip_eq]
  exact ⟨rfl, rfl, rfl, rfl, rfl, rfl, Nat.le_refl _⟩

theorem alike_beginReceiving (c : Chain) (now : Instant) : c.Alike (c.beginReceiving now) :=
  ⟨rfl, rfl, rfl, rfl, rfl, rfl, Nat.le_refl _⟩

theorem alike_handedOff (c : Chain) : c.Alike c.handedOff := by
  rw [handedOff]
  split <;> exact ⟨rfl, rfl, rfl, rfl, rfl, rfl, Nat.le_refl _⟩

theorem alike_deliver {i : Nat} (h : c.next now = (.deliver i r, c')) : c.Alike c' := by
  obtain ⟨-, -, -, -, -, rfl⟩ := next_deliver h
  exact ⟨rfl, rfl, rfl, rfl, rfl, rfl, Nat.le_succ _⟩

theorem Alike.trans {c'' : Chain} (h : c.Alike c') (h' : c'.Alike c'') : c.Alike c'' where
  id := h'.id.trans h.id
  receivers := h'.receivers.trans h.receivers
  final := h'.final.trans h.final
  copy := h'.copy.trans h.copy
  sticky := h'.sticky.trans h.sticky
  abort := h'.abort.trans h.abort
  cursor := Nat.le_trans h.cursor h'.cursor

theorem take_deliver {i : Nat} (h : c.next now = (.deliver i r, c')) :
    c.receivers.take c.cursor ++ [r] = c.receivers.take c'.cursor := by
  obtain ⟨-, -, -, -, hr, rfl⟩ := next_deliver h
  rw [List.take_add_one, hr]
  rfl

end Chain

structure Chain.Serving (c : Chain) (a : Admission) (evs : List ChainEvent) : Prop where
  receivers : c.receivers = a.matched.map Subscriber.id
  final : c.finalReceiver = a.finalReceiver
  copy : c.copy = a.publication.copyWith (latest a.result evs)
  sticky : c.sticky = a.publication.options.sticky
  faithful : Faithful a.publication a.result evs
  reached : (evs.filterMap ChainEvent.reached?).Sublist (c.receivers.take c.cursor)
  abort : afterAbort evs = if c.abort then some [] else none

namespace Chain.Serving

variable {c c' : Chain} {a : Admission} {evs : List ChainEvent}

theorem told (h : c.Serving a evs) : Told a evs where
  faithful := h.faithful
  reached := h.receivers ▸ h.reached.trans (List.take_sublist _ _)

theorem keep (h : c.Serving a evs) (hc : c.Alike c') : c'.Serving a evs where
  receivers := hc.receivers.trans h.receivers
  final := hc.final.trans h.final
  copy := hc.copy.trans h.copy
  sticky := hc.sticky.trans h.sticky
  faithful := h.faithful
  reached := by
    rw [hc.receivers]
    exact h.reached.trans (List.take_sublist_take_left hc.cursor)
  abort := by
    rw [hc.abort]
    exact h.abort

theorem event (h : c.Serving a evs) (hc : c.Alike c') (ha : c.abort = false) {e : ChainEvent}
    (he : e.result? = none) (hs : e.Shows c.copy)
    (hreach : (c.receivers.take c.cursor ++ e.reached?.toList).Sublist
      (c.receivers.take c'.cursor)) : c'.Serving a (evs ++ [e]) where
  receivers := hc.receivers.trans h.receivers
  final := hc.final.trans h.final
  copy := by
    rw [hc.copy, h.copy, latest_append, latest, latest, List.foldl_cons, he]
    rfl
  sticky := hc.sticky.trans h.sticky
  faithful := faithful_append.2 ⟨h.faithful, h.copy ▸ hs, trivial⟩
  reached := by
    have hlast : [e].filterMap ChainEvent.reached? = e.reached?.toList := by
      cases h : e.reached? <;> simp [h]
    rw [hc.receivers, List.filterMap_append, hlast]
    exact (h.reached.append_right _).trans hreach
  abort := by
    have hn : e.aborts = false := by
      cases e <;> first | rfl | cases he
    rw [afterAbort_append, h.abort, hc.abort, ha]
    simp [afterAbort, hn]

theorem aside (h : c.Serving a evs) (hc : c.Alike c') (ha : c.abort = false) {e : ChainEvent}
    (he : e.result? = none) (hs : e.Shows c.copy) (hr : e.reached? = none) :
    c'.Serving a (evs ++ [e]) := by
  apply h.event hc ha he hs
  rw [hr, Option.toList_none, List.append_nil]
  exact List.take_sublist_take_left hc.cursor

theorem finish (h : c.Serving a evs) {r : SubscriberId} (hr : c.awaiting = some r)
    (ha : c.abort = false) (code : Int) (data : String) (abort : Bool) :
    (c.finish r code data abort).2.Serving a (evs ++ [.accepted c.id r code data abort]) := by
  rw [finish_of_awaiting hr]
  refine ⟨h.receivers, h.final, ?_, h.sticky,
    faithful_append.2 ⟨h.faithful, trivial, trivial⟩, ?_, ?_⟩
  · change Copy.mk c.copy.serial (c.copy.event.setResult code data) = _
    rw [h.copy, latest_append]
    rfl
  · rw [List.filterMap_append]
    exact (List.append_nil _).symm ▸ h.reached
  · rw [afterAbort_append, h.abort, ha]
    rfl

end Chain.Serving

namespace View

variable {v w : View} {evs es : List ChainEvent}

theorem Turns.about (hm : v.Turns w es) :
    ∀ e ∈ es, ∃ t, (v.title? = some t ∨ v.title? = none ∧ w.title? = some t) ∧
      e.chain? = some t.1 := by
  intro e he
  cases hm with
  | stay hr ht hw hb hs hes =>
    obtain ⟨-, t, ht, hc⟩ := hes e he
    exact ⟨t, .inl ht, hc⟩
  | stop hr ht hw hb hs => cases he
  | start hr hv ht hw hb hp ha hs =>
    cases List.mem_singleton.1 he
    exact ⟨_, .inr ⟨hv, ht⟩, rfl⟩
  | hand hr hv ht hw hb hb' hn hs =>
    cases List.mem_singleton.1 he
    exact ⟨_, .inl hv, hn⟩
  | handed hr hv ht hw hb hb' hn hsub hs =>
    cases List.mem_singleton.1 he
    exact ⟨_, .inl hv, hn⟩
  | finish last reason hr hv ht hw hb hl hf hs =>
    refine ⟨_, .inl hv, ?_⟩
    cases last with
    | none =>
      cases List.mem_singleton.1 he
      rfl
    | some x =>
      cases List.mem_cons.1 he with
      | inl he =>
        cases he
        exact (hl x rfl).1
      | inr he =>
        cases List.mem_singleton.1 he
        rfl

theorem Turns.filter_eq_nil (hm : v.Turns w es) {id : ChainId}
    (hv : ∀ t, v.title? = some t → t.1 ≠ id)
    (hw : ∀ t, v.title? = none → w.title? = some t → t.1 ≠ id) :
    es.filter (fun e => e.chain? = some id) = [] := by
  apply List.filter_eq_nil_iff.2
  intro e he hid
  obtain ⟨t, ht, hc⟩ := hm.about e he
  rw [decide_eq_true_eq, hc] at hid
  cases ht with
  | inl ht => exact hv t ht (Option.some.inj hid)
  | inr ht => exact hw t ht.1 ht.2 (Option.some.inj hid)

end View

end EventBroker
