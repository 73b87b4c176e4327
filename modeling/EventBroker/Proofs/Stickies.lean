import EventBroker.Proofs.Backlog
import EventBroker.Proofs.Eligibility

namespace EventBroker

def lastSticky (admitted : List Admission) (name : String) : Option Publication :=
  ((admitted.map Admission.publication).filter fun p =>
    p.options.sticky ∧ p.event.name = name).getLast?

theorem lastSticky_append (xs ys : List Admission) (name : String) :
    lastSticky (xs ++ ys) name = (lastSticky ys name).or (lastSticky xs name) := by
  simp only [lastSticky, List.map_append, List.filter_append, List.getLast?_append]

theorem lastSticky_one (a : Admission) (name : String) : lastSticky [a] name =
    if a.publication.options.sticky ∧ a.publication.event.name = name then some a.publication
    else none := by
  rw [lastSticky, List.map_singleton, List.filter_cons, List.filter_nil]
  split <;> simp_all

theorem lastSticky_eq_some {admitted : List Admission} {name : String} {p : Publication}
    (h : lastSticky admitted name = some p) :
    ∃ a ∈ admitted, a.publication = p ∧ p.options.sticky = true ∧ p.event.name = name := by
  obtain ⟨hp, hs⟩ := List.mem_filter.1 (List.mem_of_getLast? h)
  obtain ⟨a, ha, hap⟩ := List.mem_map.1 hp
  obtain ⟨hsticky, hname⟩ := of_decide_eq_true hs
  exact ⟨a, ha, hap, hsticky, hname⟩

namespace View

variable {v w : View} {a : Option Admission} {es : List ChainEvent}

theorem Request.sticky_get? (h : v.Request a w) (name : String) :
    w.sticky.get? name = (lastSticky a.toList name).or (v.sticky.get? name) := by
  cases h with
  | @publish a w hn hm hq =>
    have hsticky : w.sticky = v.sticky := (congrArg View.sticky hq.frame :)
    rw [Option.toList_some, lastSticky_one, announce, hsticky]
    dsimp only
    by_cases hs : a.publication.options.sticky = true
    · rw [if_pos hs, StickyStore.get?_put]
      split <;> simp_all
    · simp [hs]
  | _ => rfl

theorem Effect.sticky_get? (h : v.Effect a es w) (name : String) :
    w.sticky.get? name = (lastSticky a.toList name).or (v.sticky.get? name) := by
  cases h with
  | request hq => exact hq.sticky_get? name
  | carry lane hc => rw [hc.frame]; rfl
  | move hm => rw [hm.frame]; rfl

theorem Request.bundleOf_eq (h : v.Request a w) : w.bundleOf = v.bundleOf := by
  cases h with
  | publish hn hm hq => exact (congrArg View.bundleOf hq.frame :)
  | _ => rfl

theorem Effect.bundleOf_eq (h : v.Effect a es w) : w.bundleOf = v.bundleOf := by
  cases h with
  | request hq => exact hq.bundleOf_eq
  | carry lane hc => rw [hc.frame]
  | move hm => rw [hm.frame]

end View

namespace Registry

variable {r : Registry}

theorem Keeps.mem_matched_add {live : List Subscriber} (h : r.Keeps live) {s : Subscriber}
    (hs : s.id = ⟨r.issued + 1⟩) (hscope : s.scope ≠ .current) (o : Oracle) (p : Publication) :
    s ∈ ((r.add s).matching o p).matched ↔ p.verdict o s = .deliver := by
  have hadded : (r.add s).Keeps (live ++ [s]) :=
    ⟨h.toIndexed.add hs hscope, by rw [live_add h.toSound hs, h.live_eq]⟩
  have hlive : s ∈ live ++ [s] := List.mem_append_right _ (List.mem_singleton_self s)
  rw [hadded.mem_matched, hadded.verdict_live p o hlive]
  split
  · split <;> simp_all
  · simp_all

end Registry

namespace Broker

variable {b b' : Broker}

theorem sticky_run (hv : b.view.Sound) (actions : List Action) (name : String) :
    (b.run actions).sticky.get? name =
      (lastSticky (b.admissions actions) name).or (b.sticky.get? name) := by
  induction actions generalizing b with
  | nil => rfl
  | cons a rest ih =>
    have he := b.act_effect a hv.registry
    have hfirst : (b.act a).sticky.get? name = _ := he.sticky_get? name
    refine (ih (hv.effect he)).trans ?_
    rw [hfirst, admissions, lastSticky_append, Option.or_assoc]
    rfl

theorem resolveBundle_resolveBundle (b : Broker) (o : Owner) :
    b.resolveBundle (b.resolveBundle o) = b.resolveBundle o := by
  simp only [resolveBundle]
  by_cases h : o.bundle = ""
  · simp only [h, if_true]
    split <;> rfl
  · simp only [h, if_false]

theorem resolveBundle_congr (h : b'.bundleOf = b.bundleOf) (o : Owner) :
    b'.resolveBundle o = b.resolveBundle o := by
  rw [resolveBundle, resolveBundle, h]

theorem named_of_admits {a : Action} {x : Admission} (h : b.admits a = some x) :
    b.resolveBundle x.publication.publisher = x.publication.publisher := by
  have posted {p : Publication} {finalReceiver : Option Receiver}
      (hp : b.posts p finalReceiver = some x) :
      b.resolveBundle x.publication.publisher = x.publication.publisher := by
    rw [posts] at hp
    split at hp
    · cases hp
      exact b.resolveBundle_resolveBundle p.publisher
    · cases hp
  cases a with
  | publish p => exact posted h
  | publishWithResult p receiver => exact posted h
  | _ => cases h

theorem bundleOf_run (hv : b.view.Sound) (actions : List Action) :
    (b.run actions).bundleOf = b.bundleOf := by
  induction actions generalizing b with
  | nil => rfl
  | cons a rest ih =>
    have he := b.act_effect a hv.registry
    exact (ih (hv.effect he)).trans he.bundleOf_eq

theorem named_of_admissions (hv : b.view.Sound) {actions : List Action} {x : Admission}
    (h : x ∈ b.admissions actions) :
    b.resolveBundle x.publication.publisher = x.publication.publisher := by
  obtain ⟨before, a, after, -, ha⟩ := gathers_admissions.exists_of_mem h
  rw [← resolveBundle_congr (bundleOf_run hv before)]
  exact named_of_admits (Option.mem_toList.1 ha)

/-- Every value is stored under its name, by a publisher that has been named. -/
structure Remembers (b : Broker) : Prop where
  name : ∀ {name p}, b.sticky.get? name = some p → p.event.name = name
  publisher : ∀ {name p}, b.sticky.get? name = some p →
    b.resolveBundle p.publisher = p.publisher

theorem stickies_ascending (h : b.Remembers) (s : Subscriber) :
    (b.stickies s s.interest.events.toList).Pairwise fun p q => p.event.name < q.event.name := by
  have ascending : s.interest.events.toList.Pairwise fun name name' => compare name name' = .lt :=
    List.pairwise_map.2 s.interest.events.sorted
  apply List.Pairwise.filter
  apply List.pairwise_filterMap.2
  apply ascending.imp
  intro name name' hlt p hp q hq
  rw [h.name hp, h.name hq]
  exact compareOfLessAndEq_eq_lt.1 hlt

theorem mem_stickies (h : b.Remembers) {s : Subscriber} {names : List String} {p : Publication} :
    p ∈ b.stickies s names ↔ p.event.name ∈ names ∧ b.sticky.get? p.event.name = some p ∧
      p.verdict b.oracle s = .deliver := by
  rw [stickies, List.mem_filter, List.mem_filterMap, decide_eq_true_iff]
  constructor
  · rintro ⟨⟨name, hname, hp⟩, hv⟩
    have hn := h.name hp
    subst hn
    exact ⟨hname, hp, hv⟩
  · rintro ⟨hname, hp, hv⟩
    exact ⟨⟨_, hname, hp⟩, hv⟩

theorem mem_stickies_iff_matched (h : b.Remembers) {live : List Subscriber}
    (hr : b.registry.Keeps live) {s : Subscriber} (hs : s.id = ⟨b.registry.issued + 1⟩)
    (hscope : s.scope ≠ .current) {p : Publication} :
    p ∈ b.stickies s s.interest.events.toList ↔ p.event.name ∈ s.interest.events.toList ∧
      b.sticky.get? p.event.name = some p ∧
      s ∈ ({ b with registry := b.registry.add s }.matching p).matched := by
  rw [mem_stickies h]
  refine and_congr_right fun _ => and_congr_right fun hp => ?_
  have hnamed : ({ b with registry := b.registry.add s } : Broker).resolveBundle p.publisher =
      p.publisher := h.publisher hp
  rw [matching, hnamed]
  exact (hr.mem_matched_add hs hscope b.oracle p).symm

theorem admitted_of_sticky (hv : b.view.Sound) (hs : ∀ name, b.sticky.get? name = none)
    {actions : List Action} {name : String} {p : Publication}
    (h : (b.run actions).sticky.get? name = some p) :
    ∃ a ∈ b.admissions actions, a.publication = p ∧ p.options.sticky = true ∧
      p.event.name = name := by
  rw [sticky_run hv, hs, Option.or_none] at h
  exact lastSticky_eq_some h

theorem remembers_run (hv : b.view.Sound) (hs : ∀ name, b.sticky.get? name = none)
    (actions : List Action) : (b.run actions).Remembers := by
  constructor
  · intro name p h
    obtain ⟨a, -, -, -, hname⟩ := admitted_of_sticky hv hs h
    exact hname
  · intro name p h
    obtain ⟨a, ha, rfl, -, -⟩ := admitted_of_sticky hv hs h
    rw [resolveBundle_congr (bundleOf_run hv actions)]
    exact named_of_admissions hv ha

theorem keeps_run (config : Config) (oracle : Oracle) (bundleOf : Uid → Option String)
    (observers : List Observer) (actions : List Action) :
    ∃ live, ((start config oracle bundleOf observers).run actions).registry.Keeps live := by
  rw [registry_run]
  exact ⟨_, (Registry.Keeps.ofCeiling config.ceiling).run _⟩

theorem enrolls_eq_some {req : Subscription} {s : Subscriber} (h : b.enrolls req = some s) :
    s.id = ⟨b.registry.issued + 1⟩ ∧ s.scope ≠ .current := by
  rw [enrolls] at h
  split at h
  · cases h
  · split at h
    · rename_i hr
      cases h
      rw [(Registry.subscribe_adds hr).1]
      exact ⟨rfl, Registry.Scope.resolve_ne_current _ _⟩
    · cases h

/-- Sticky replay agrees with matching. After every run the sticky store holds, of each name, the
last sticky publication that was admitted. Whoever subscribes is sent, by ascending name, what is
stored under the names it asks for and would match it if it were published now; a full queue drops
the rest, of each of which a record tells, and nobody else gets anything. -/
theorem stickies_agree (config : Config) (oracle : Oracle) (bundleOf : Uid → Option String)
    (observers : List Observer) (actions : List Action) :
    let b₀ := start config oracle bundleOf observers
    let b := b₀.run actions
    (∀ name, b.sticky.get? name = lastSticky (b₀.admissions actions) name) ∧
    ∀ req, match b.subscribe req, b.enrolls req with
      | (.ok id, b'), some s =>
        let live := { b with registry := b.registry.add s }
        let values := b.stickies s s.interest.events.toList
        let free := config.queueRoom - b.fresh.jobs.length
        id = s.id ∧
        values.Pairwise (fun p q => p.event.name < q.event.name) ∧
        (∀ p, p ∈ values ↔ p.event.name ∈ s.interest.events.toList ∧
          b.sticky.get? p.event.name = some p ∧ s ∈ (live.matching p).matched) ∧
        b'.view = { live.view with
          fresh := b.fresh.enter ((values.take free).map (stickyJob id)) } ∧
        b'.overflows = b.overflows ++ (values.drop free).map fun _ => Lane.fresh.overflow
      | (.error _, b'), none => b'.view = b.view ∧ b'.overflows = b.overflows
      | _, _ => False := by
  intro b₀ b
  have hsound : b₀.view.Sound := view_start_sound config oracle bundleOf observers
  have hsticky : ∀ name, b.sticky.get? name = lastSticky (b₀.admissions actions) name :=
    fun name => (sticky_run hsound actions name).trans Option.or_none
  have hremembers : b.Remembers := remembers_run hsound (fun _ => rfl) actions
  have hbacklog := (backlog_start config oracle bundleOf observers).run actions
  have hconfig : b.config = config := run_config hsound actions
  obtain ⟨everybody, hregistry⟩ := keeps_run config oracle bundleOf observers actions
  refine ⟨hsticky, fun req => ?_⟩
  cases h : b.subscribe req with
  | mk result b' =>
    cases result with
    | error e =>
      obtain ⟨hnone, hoverflows⟩ := enrolls_of_error h
      rw [hnone]
      exact ⟨subscribe_refused h, hoverflows⟩
    | ok id =>
      -- A courier stops only when the broker is cancelled, and then nobody can subscribe.
      have running (hc : b.cancelled = false) : b.fresh.courier ≠ .stopped := fun hs => by
        cases hc.symm.trans (hbacklog.stopped .fresh hs)
      obtain ⟨s, hs, rfl, hid, haccepts⟩ := subscribe_accepts running h
      rw [hs]
      have hscope := (enrolls_eq_some hs).2
      have hroom : b.fresh.room = config.queueRoom := by
        rw [← hconfig]
        exact hbacklog.room .fresh
      refine ⟨rfl, stickies_ascending hremembers s,
        fun p => mem_stickies_iff_matched hremembers hregistry hid hscope, ?_, ?_⟩
      · rw [haccepts.view, ← hroom, List.map_take]
        rfl
      · rw [haccepts.overflows, ← hroom]
        simp only [DeliveryQueue.refused, List.map_drop, List.map_map]
        rfl

end Broker

end EventBroker
