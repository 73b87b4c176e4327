import EventBroker.Proofs.Indexing

namespace EventBroker

variable (p : Publication) (o : Oracle) (s : Subscriber)

structure Interest.Wants (i : Interest) (e : Event) : Prop where
  name : e.name ∈ i.events.toList
  entities : ∀ x ∈ i.entities.toList, x ∈ e.entities.toList
  scheme : i.schemes.toList = [] ∨ ∃ x ∈ i.schemes.toList, e.scheme = some x

def Publication.Addresses (user : UserId) : Prop :=
  p.options.audience = .user user ∨ p.options.audience = .current ∧ p.publisher.user = user

def Publication.Overreaches (user : UserId) : Prop :=
  o.isPrivileged p.publisher.token = true ∧
    (p.options.audience = .unspecified ∨ p.options.audience = .all ∨ 0 ≤ user ∧ user ≤ 99)

def Publication.Visible : Scope → Prop
  | .all => True
  | .current => False
  | .user user => p.Addresses user ∨ p.Overreaches o user

structure Subscriber.OpenTo (publisher : Owner) : Prop where
  bundle : ∀ b, s.publisherBundle = some b → b ≠ "" → b = publisher.bundle
  uid : ∀ u, s.publisherUid = some u → u = publisher.uid

inductive Restriction
  | bundle (name : String)
  | uids (ids : List Uid)
  | system

def Restriction.Met : Restriction → Subscriber → Prop
  | .bundle name, s => s.owner.bundle = name
  | .uids ids, s => s.owner.uid ∈ ids
  | .system, s => s.isSystem = true

def PublishOptions.Sets (options : PublishOptions) : Restriction → Prop
  | .bundle name => options.bundle = some name ∧ name ≠ ""
  | .uids ids => options.uids = ids ∧ ids ≠ []
  | .system => options.kind = some .system

def PublishOptions.Admits (options : PublishOptions) (s : Subscriber) : Prop :=
  match options.rule with
  | .and => ∀ r, options.Sets r → r.Met s
  | .or => (∃ r, options.Sets r) → ∃ r, options.Sets r ∧ r.Met s

structure Publication.Eligible : Prop where
  wanted : s.interest.Wants p.event
  visible : p.Visible o s.scope
  accepted : s.OpenTo p.publisher
  admitted : p.options.Admits s

def Requirement.Satisfied (r : Requirement) (t : Token) : Prop :=
  r.permissions = [] ∨
    match r.rule with
    | .all => ∀ q ∈ r.permissions, o.hasPermission t q = true
    | .any => ∃ q ∈ r.permissions, o.hasPermission t q = true

structure Publication.Permitted : Prop where
  reach : ∀ q, s.permission = some q → q ≠ "" → o.hasPermission p.publisher.token q = true
  receive : ∀ q ∈ p.options.permissions, o.hasPermission s.owner.token q = true
  required : ∀ r, o.requirement p.event.name = some r → r.Satisfied o s.owner.token

theorem Interest.matchesEvent_iff (i : Interest) (e : Event) :
    i.matchesEvent e = true ↔ i.Wants e := by
  have hscheme : i.matchesScheme e.scheme = true ↔
      i.schemes.toList = [] ∨ ∃ x ∈ i.schemes.toList, e.scheme = some x := by
    have hempty : i.schemes.isEmpty = true ↔ i.schemes.toList = [] := by
      simp [Table.isEmpty, SortedSet.toList, Table.keys]
    rw [matchesScheme, Bool.or_eq_true, hempty]
    apply or_congr_right
    cases e.scheme with
    | none => simp
    | some x => simp [Table.contains_iff, SortedSet.toList]
  rw [matchesEvent, Bool.and_eq_true, Bool.and_eq_true, SortedSet.subset_iff, hscheme, matchesName,
    Table.contains_iff]
  constructor
  · rintro ⟨⟨name, entities⟩, scheme⟩
    exact ⟨name, entities, scheme⟩
  · rintro ⟨name, entities, scheme⟩
    exact ⟨⟨name, entities⟩, scheme⟩

theorem Publication.sees_iff {scope : Scope} (h : scope ≠ .current) :
    scope.sees (o.isPrivileged p.publisher.token) p.audience = true ↔ p.Visible o scope := by
  cases scope with
  | all => simp [Scope.sees, Visible]
  | current => exact absurd rfl h
  | user user =>
    have haddressed : p.audience = .user user ↔ p.Addresses user := by
      rw [audience, Addresses]
      cases p.options.audience <;> simp [Audience.resolve]
    have hnobody : p.audience = .unspecified ↔ p.options.audience = .unspecified := by
      rw [audience]
      cases p.options.audience <;> simp [Audience.resolve]
    have heverybody : p.audience = .all ↔ p.options.audience = .all := by
      rw [audience]
      cases p.options.audience <;> simp [Audience.resolve]
    have hsystem : (Scope.user user).isSystemUser = true ↔ 0 ≤ user ∧ user ≤ 99 := by
      rw [Scope.isSystemUser, Bool.and_eq_true, decide_eq_true_eq, decide_eq_true_eq]
      exact Iff.rfl
    rw [Scope.sees, Visible, Overreaches, Bool.or_eq_true, Bool.and_eq_true, Bool.or_eq_true,
      Bool.or_eq_true, beq_iff_eq, beq_iff_eq, beq_iff_eq, haddressed, hnobody, heverybody, hsystem,
      or_assoc]

theorem Subscriber.accepts_iff (publisher : Owner) :
    s.accepts publisher = true ↔ s.OpenTo publisher := by
  have hbundle : s.publisherBundle.all (fun b => b == "" || b == publisher.bundle) = true ↔
      ∀ b, s.publisherBundle = some b → b ≠ "" → b = publisher.bundle := by
    cases s.publisherBundle with
    | none => simp
    | some b => simp [or_iff_not_imp_left]
  have huid : s.publisherUid.all (fun u => u == publisher.uid) = true ↔
      ∀ u, s.publisherUid = some u → u = publisher.uid := by
    cases s.publisherUid with
    | none => simp
    | some u => simp
  rw [accepts, Bool.and_eq_true, hbundle, huid]
  constructor
  · rintro ⟨bundle, uid⟩
    exact ⟨bundle, uid⟩
  · rintro ⟨bundle, uid⟩
    exact ⟨bundle, uid⟩

namespace PublishOptions

variable (options : PublishOptions)

theorem bundleFilter_eq_some_iff {name : String} :
    options.bundleFilter = some name ↔ options.bundle = some name ∧ name ≠ "" := by
  rw [bundleFilter, Option.filter_eq_some_iff, decide_eq_true_eq]

theorem mem_checks_iff {answer : Bool} :
    answer ∈ options.checks s ↔ ∃ r, options.Sets r ∧ (answer = true ↔ r.Met s) := by
  rw [checks, List.mem_append, List.mem_append, or_assoc]
  constructor
  · rintro (h | h | h)
    · obtain ⟨name, hname, rfl⟩ := Option.map_eq_some_iff.1 (Option.mem_toList.1 h)
      exact ⟨.bundle name, options.bundleFilter_eq_some_iff.1 hname, beq_iff_eq⟩
    · split at h
      · cases h
      · rename_i hu
        obtain rfl := List.mem_singleton.1 h
        refine ⟨.uids options.uids, ⟨rfl, fun he => hu (List.isEmpty_iff.2 he)⟩, ?_⟩
        exact List.contains_iff_mem
    · split at h
      · rename_i hk
        obtain rfl := List.mem_singleton.1 h
        exact ⟨.system, beq_iff_eq.1 hk, Iff.rfl⟩
      · cases h
  · rintro ⟨r, hset, hmet⟩
    cases r with
    | bundle name =>
      apply Or.inl
      rw [options.bundleFilter_eq_some_iff.2 hset, Bool.eq_iff_iff.2 (hmet.trans beq_iff_eq.symm)]
      exact List.mem_singleton_self _
    | uids ids =>
      obtain ⟨rfl, hne⟩ := hset
      refine .inr (.inl ?_)
      rw [if_neg fun he => hne (List.isEmpty_iff.1 he),
        Bool.eq_iff_iff.2 (hmet.trans List.contains_iff_mem.symm)]
      exact List.mem_singleton_self _
    | system =>
      refine .inr (.inr ?_)
      rw [if_pos (beq_iff_eq.2 hset), Bool.eq_iff_iff.2 hmet]
      exact List.mem_singleton_self _

theorem hasFilters_iff : options.hasFilters = true ↔ ∃ r, options.Sets r := by
  rw [hasFilters, Bool.or_eq_true, Bool.or_eq_true]
  constructor
  · rintro ((h | h) | h)
    · obtain ⟨name, hname⟩ := Option.isSome_iff_exists.1 h
      exact ⟨.bundle name, options.bundleFilter_eq_some_iff.1 hname⟩
    · exact ⟨.uids options.uids, rfl, by simpa using h⟩
    · exact ⟨.system, beq_iff_eq.1 h⟩
  · rintro ⟨r, hset⟩
    cases r with
    | bundle name =>
      rw [options.bundleFilter_eq_some_iff.2 hset]
      exact .inl (.inl rfl)
    | uids ids =>
      obtain ⟨rfl, hne⟩ := hset
      exact .inl (.inr (by simpa using hne))
    | system => exact .inr (beq_iff_eq.2 hset)

theorem allow_iff : options.allow s = true ↔ options.Admits s := by
  rw [allow, Admits, Bool.or_eq_true, Bool.not_eq_true', Bool.eq_false_iff, ne_eq, hasFilters_iff]
  cases options.rule with
  | and =>
    simp only [List.all_eq_true, id_eq]
    constructor
    · rintro h r hset
      obtain h | h := h
      · exact absurd ⟨r, hset⟩ h
      · by_contra hmet
        have hmem := (options.mem_checks_iff s).2 ⟨r, hset, iff_of_false Bool.false_ne_true hmet⟩
        exact absurd (h false hmem) Bool.false_ne_true
    · intro h
      refine .inr fun answer hmem => ?_
      obtain ⟨r, hset, hmet⟩ := (options.mem_checks_iff s).1 hmem
      exact hmet.2 (h r hset)
  | or =>
    simp only [List.any_eq_true, id_eq, exists_eq_right]
    rw [mem_checks_iff, ← imp_iff_not_or]
    simp only [true_iff]

end PublishOptions

theorem Publication.eligible_iff {p : Publication} {o : Oracle} {s : Subscriber}
    (h : s.scope ≠ .current) : p.eligible o s = true ↔ p.Eligible o s := by
  rw [eligible, Bool.and_eq_true, Bool.and_eq_true, Bool.and_eq_true, Interest.matchesEvent_iff,
    p.sees_iff o h, s.accepts_iff, PublishOptions.allow_iff]
  constructor
  · rintro ⟨⟨⟨wanted, visible⟩, accepted⟩, admitted⟩
    exact ⟨wanted, visible, accepted, admitted⟩
  · rintro ⟨wanted, visible, accepted, admitted⟩
    exact ⟨⟨⟨wanted, visible⟩, accepted⟩, admitted⟩

theorem Requirement.metBy_iff (r : Requirement) (t : Token) :
    r.metBy o t = true ↔ r.Satisfied o t := by
  rw [metBy, Satisfied, Bool.or_eq_true, List.isEmpty_iff]
  cases r.rule <;> simp

theorem Publication.permitted_iff : p.permitted o s = true ↔ p.Permitted o s := by
  have hreach : s.wantsPermission.all (o.hasPermission p.publisher.token) = true ↔
      ∀ q, s.permission = some q → q ≠ "" → o.hasPermission p.publisher.token q = true := by
    simp [Subscriber.wantsPermission, Option.all_eq_true, or_iff_not_imp_left]
  have hrequired : ((o.requirement p.event.name).all fun r => r.metBy o s.owner.token) = true ↔
      ∀ r, o.requirement p.event.name = some r → r.Satisfied o s.owner.token := by
    simp [Option.all_eq_true, Requirement.metBy_iff]
  rw [permitted, Bool.and_eq_true, Bool.and_eq_true, hreach, hrequired, List.all_eq_true]
  constructor
  · rintro ⟨⟨reach, receive⟩, required⟩
    exact ⟨reach, receive, required⟩
  · rintro ⟨reach, receive, required⟩
    exact ⟨⟨reach, receive⟩, required⟩

instance Publication.decidableVisible (scope : Scope) : Decidable (p.Visible o scope) :=
  match scope with
  | .all => isTrue trivial
  | .current => isFalse id
  | .user _ => decidable_of_iff _ (p.sees_iff o (by simp))

instance Publication.decidableEligible : Decidable (p.Eligible o s) :=
  if h : s.scope = .current then isFalse fun he => by simpa [h, Visible] using he.visible
  else decidable_of_iff _ (eligible_iff h)

instance Publication.decidablePermitted : Decidable (p.Permitted o s) :=
  decidable_of_iff _ (p.permitted_iff o s)

namespace Registry

variable {r : Registry} {live : List Subscriber}

theorem Keeps.resolved_live (h : r.Keeps live) {s : Subscriber} (hs : s ∈ live) :
    s.scope ≠ .current := by
  rw [← h.live_eq] at hs
  obtain ⟨e, he, rfl⟩ := h.mem_live.1 hs
  exact h.resolved he

theorem Keeps.verdict_live (h : r.Keeps live) {s : Subscriber} (hs : s ∈ live) :
    p.verdict o s =
      if p.Eligible o s then if p.Permitted o s then .deliver else .denied else .filtered := by
  have he := Publication.eligible_iff (p := p) (o := o) (h.resolved_live hs)
  rw [Publication.verdict]
  by_cases hel : p.Eligible o s
  · rw [if_pos hel, he.2 hel]
    by_cases hper : p.Permitted o s
    · simp [hper, (p.permitted_iff o s).2 hper]
    · simp [hper, Bool.eq_false_iff.2 fun ht => hper ((p.permitted_iff o s).1 ht)]
  · rw [if_neg hel, Bool.eq_false_iff.2 fun ht => hel (he.1 ht)]
    rfl

theorem verdict_undeclared {s : Subscriber}
    (h : s.interest.matchesName p.event.name = false) : p.verdict o s = .filtered := by
  simp [Publication.verdict, Publication.eligible, Interest.matchesEvent, h]

theorem Keeps.filter_declaring (h : r.Keeps live) {v : Verdict} (hv : v ≠ .filtered) :
    (r.declaring p.event.name).filter (fun s => p.verdict o s == v) =
      live.filter fun s => p.verdict o s == v := by
  rw [h.declaring_eq, h.live_eq, List.filter_filter]
  apply List.filter_congr
  intro s _
  cases hname : s.interest.matchesName p.event.name with
  | true => rw [Bool.and_true]
  | false =>
    rw [Bool.and_false, verdict_undeclared p o hname]
    cases v <;> first | rfl | exact absurd rfl hv

theorem sublist_of_ascending {l : List Subscriber} (h : l.Pairwise fun s t => s.id.val < t.id.val)
    {s t : Subscriber} (hs : s ∈ l) (ht : t ∈ l) (hlt : s.id.val < t.id.val) :
    [s, t].Sublist l := by
  induction l with
  | nil => cases hs
  | cons x rest ih =>
    obtain ⟨hx, hrest⟩ := List.pairwise_cons.1 h
    cases List.mem_cons.1 ht with
    | inl ht =>
      subst ht
      cases List.mem_cons.1 hs with
      | inl hs => exact absurd (hs ▸ hlt) (Nat.lt_irrefl _)
      | inr hs => exact absurd (Nat.lt_trans hlt (hx s hs)) (Nat.lt_irrefl _)
    | inr hlater =>
      cases List.mem_cons.1 hs with
      | inl hs =>
        rw [hs]
        exact (List.singleton_sublist.2 hlater).cons_cons x
      | inr hs => exact (ih hrest hs hlater).cons x

theorem Keeps.mem_matched (h : r.Keeps live) {s : Subscriber} :
    s ∈ (r.matching o p).matched ↔ s ∈ live ∧ p.Eligible o s ∧ p.Permitted o s := by
  rw [matching]
  dsimp only
  rw [h.filter_declaring p o (by simp), List.mem_mergeSort, List.mem_filter, beq_iff_eq]
  apply and_congr_right
  intro hs
  rw [h.verdict_live p o hs]
  by_cases he : p.Eligible o s
  · by_cases hp : p.Permitted o s <;> simp [he, hp]
  · simp [he]

theorem Keeps.denied_eq (h : r.Keeps live) :
    (r.matching o p).denied = live.countP fun s => p.Eligible o s ∧ ¬p.Permitted o s := by
  rw [matching]
  dsimp only
  rw [List.countP_eq_length_filter, h.filter_declaring p o (by simp),
    ← List.countP_eq_length_filter]
  apply List.countP_congr
  intro s hs
  rw [h.verdict_live p o hs, beq_iff_eq, decide_eq_true_eq]
  by_cases he : p.Eligible o s
  · by_cases hp : p.Permitted o s <;> simp [he, hp]
  · simp [he]

theorem Keeps.matched_order (h : r.Keeps live) :
    (r.matching o p).matched.Pairwise fun s t =>
      t.priority < s.priority ∨ s.priority = t.priority ∧ [s, t].Sublist live := by
  apply (matched_ranked o p h.toSound).imp_of_mem
  intro s t hs ht hst
  refine hst.imp_right fun hst => ⟨hst.1, ?_⟩
  have ascending := h.live_ascending
  rw [h.live_eq] at ascending
  exact sublist_of_ascending ascending ((h.mem_matched p o).1 hs).1 ((h.mem_matched p o).1 ht).1
    hst.2

/-- However a registry has come about, matching finds what a scan of all live subscriptions would:
each that is eligible and permitted once, the higher priority first and the earlier registered
first among equals, and how many are eligible only. -/
theorem matching_by_scan (ceiling : Option Nat) (requests : List Request) (o : Oracle)
    (p : Publication) :
    let found := ((ofCeiling ceiling).run requests).matching o p
    let live := (ofCeiling ceiling).roster [] requests
    (∀ s, s ∈ found.matched ↔ s ∈ live ∧ p.Eligible o s ∧ p.Permitted o s) ∧
      (found.matched.map Subscriber.id).Nodup ∧
      (found.matched.Pairwise fun s t =>
        t.priority < s.priority ∨ s.priority = t.priority ∧ [s, t].Sublist live) ∧
      found.denied = live.countP fun s => p.Eligible o s ∧ ¬p.Permitted o s := by
  intro found live
  have h : ((ofCeiling ceiling).run requests).Keeps live := (Keeps.ofCeiling ceiling).run requests
  exact ⟨fun s => h.mem_matched p o, matched_nodup o p h.toSound, h.matched_order p o,
    h.denied_eq p o⟩

end Registry

end EventBroker
