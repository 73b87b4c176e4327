import EventBroker.Proofs.RegistryLaws

namespace EventBroker

/-- `o'` grants whatever `o` does; on privileges and requirements the two agree. -/
structure Oracle.Grants (o o' : Oracle) : Prop where
  permissions : ∀ t q, o.hasPermission t q = true → o'.hasPermission t q = true
  privileges : o'.isPrivileged = o.isPrivileged
  requirements : o'.requirement = o.requirement

/-- The publisher is privileged to `o'` and not to `o`; on permissions and requirements the two
agree. -/
structure Oracle.Promotes (o o' : Oracle) (publisher : Token) : Prop where
  permissions : o'.hasPermission = o.hasPermission
  requirements : o'.requirement = o.requirement
  unprivileged : o.isPrivileged publisher = false
  privileged : o'.isPrivileged publisher = true

section Verdict

variable {o o' : Oracle} (p : Publication) (s : Subscriber)

theorem Publication.verdict_eq_deliver_iff :
    p.verdict o s = .deliver ↔ p.eligible o s = true ∧ p.permitted o s = true := by
  rw [verdict]
  cases p.eligible o s <;> cases p.permitted o s <;> simp

theorem Publication.verdict_eq_denied_iff :
    p.verdict o s = .denied ↔ p.eligible o s = true ∧ p.permitted o s = false := by
  rw [verdict]
  cases p.eligible o s <;> cases p.permitted o s <;> simp

namespace Oracle.Grants

variable (h : o.Grants o')
include h

theorem metBy {r : Requirement} {t : Token} (hr : r.metBy o t = true) : r.metBy o' t = true := by
  rw [Requirement.metBy, Bool.or_eq_true] at hr ⊢
  apply hr.imp_right
  cases r.rule with
  | all =>
    intro hr
    rw [List.all_eq_true] at hr ⊢
    exact fun q hq => h.permissions t q (hr q hq)
  | any =>
    intro hr
    rw [List.any_eq_true] at hr ⊢
    exact hr.imp fun q hq => ⟨hq.1, h.permissions t q hq.2⟩

theorem permitted (hp : p.permitted o s = true) : p.permitted o' s = true := by
  rw [Publication.permitted, Bool.and_eq_true, Bool.and_eq_true] at hp ⊢
  obtain ⟨⟨reach, receive⟩, required⟩ := hp
  rw [h.requirements]
  refine ⟨⟨?_, ?_⟩, ?_⟩
  · rw [Option.all_eq_true] at reach ⊢
    exact fun q hq => h.permissions _ q (reach q hq)
  · rw [List.all_eq_true] at receive ⊢
    exact fun q hq => h.permissions _ q (receive q hq)
  · rw [Option.all_eq_true] at required ⊢
    exact fun r hr => h.metBy (required r hr)

theorem eligible : p.eligible o' s = p.eligible o s := by
  rw [Publication.eligible, h.privileges]
  rfl

theorem deliver (hv : p.verdict o s = .deliver) : p.verdict o' s = .deliver := by
  rw [Publication.verdict_eq_deliver_iff] at hv ⊢
  exact ⟨(h.eligible p s).trans hv.1, h.permitted p s hv.2⟩

end Oracle.Grants

theorem Scope.sees_of_unprivileged {scope : Scope} {a : Audience} (h : scope.sees false a = true) :
    scope.sees true a = true := by
  cases scope with
  | user user =>
    rw [sees, Bool.or_eq_true] at h ⊢
    exact h.imp_right fun h => nomatch h
  | _ => rfl

namespace Oracle.Promotes

variable (h : o.Promotes o' p.publisher.token)
include h

theorem permitted : p.permitted o' s = p.permitted o s := by
  have hmet (r : Requirement) (t : Token) : r.metBy o' t = r.metBy o t := by
    rw [Requirement.metBy, h.permissions]
    rfl
  rw [Publication.permitted, h.permissions, h.requirements]
  simp only [hmet]
  rfl

theorem eligible (he : p.eligible o s = true) : p.eligible o' s = true := by
  rw [Publication.eligible, h.unprivileged] at he
  rw [Publication.eligible, h.privileged]
  simp only [Bool.and_eq_true] at he ⊢
  exact ⟨⟨⟨he.1.1.1, Scope.sees_of_unprivileged he.1.1.2⟩, he.1.2⟩, he.2⟩

theorem deliver (hv : p.verdict o s = .deliver) : p.verdict o' s = .deliver := by
  rw [Publication.verdict_eq_deliver_iff] at hv ⊢
  exact ⟨h.eligible p s hv.1, (h.permitted p s).trans hv.2⟩

theorem denied (hv : p.verdict o s = .denied) : p.verdict o' s = .denied := by
  rw [Publication.verdict_eq_denied_iff] at hv ⊢
  exact ⟨h.eligible p s hv.1, (h.permitted p s).trans hv.2⟩

end Oracle.Promotes

end Verdict

namespace Registry

section Ranking

def ranked (c : List Subscriber) : List Subscriber :=
  c.mergeSort fun a b => b.priority ≤ a.priority

theorem ranked_cons (s : Subscriber) (c : List Subscriber) :
    ranked (s :: c) = (ranked c).filter (fun t => s.priority < t.priority) ++
      s :: (ranked c).filter fun t => t.priority ≤ s.priority := by
  obtain ⟨above, below, hs, hc, habove⟩ := List.mergeSort_cons priority_trans priority_total s c
  have hsorted := List.pairwise_mergeSort priority_trans priority_total (s :: c)
  rw [hs] at hsorted
  have lower : ∀ t ∈ below, t.priority ≤ s.priority := by
    intro t ht
    have hbelow := (List.pairwise_cons.1 (List.pairwise_append.1 hsorted).2.1).1
    exact of_decide_eq_true (hbelow t ht)
  have higher : ∀ t ∈ above, s.priority < t.priority := by
    intro t ht
    simpa using habove t ht
  have hfront : (above ++ below).filter (fun t => s.priority < t.priority) = above := by
    rw [List.filter_append, List.filter_eq_self.2 fun t ht => decide_eq_true (higher t ht),
      List.filter_eq_nil_iff.2 fun t ht => by simpa using lower t ht, List.append_nil]
  have hback : (above ++ below).filter (fun t => t.priority ≤ s.priority) = below := by
    rw [List.filter_append, List.filter_eq_self.2 fun t ht => decide_eq_true (lower t ht),
      List.filter_eq_nil_iff.2 fun t ht => by simpa using higher t ht, List.nil_append]
  rw [ranked, ranked, hs, hc, hfront, hback]

theorem ranked_sublist {c d : List Subscriber} (h : c.Sublist d) :
    (ranked c).Sublist (ranked d) := by
  induction h with
  | slnil => exact List.Sublist.refl _
  | @cons c d s h ih =>
    obtain ⟨above, below, hs, hd, -⟩ := List.mergeSort_cons priority_trans priority_total s d
    replace hs : ranked (s :: d) = above ++ s :: below := hs
    replace hd : ranked d = above ++ below := hd
    rw [hd] at ih
    rw [hs]
    exact ih.trans ((List.sublist_cons_self s below).append_left above)
  | cons_cons s h ih =>
    rw [ranked_cons, ranked_cons]
    exact (ih.filter _).append ((ih.filter _).cons_cons s)

end Ranking

section Matching

variable (r : Registry) (p : Publication) {o o' : Oracle}

theorem matched_sublist (h : ∀ s, p.verdict o s = .deliver → p.verdict o' s = .deliver) :
    (r.matching o p).matched.Sublist (r.matching o' p).matched := by
  apply ranked_sublist
  apply List.monotone_filter_right
  intro s hs
  exact beq_iff_eq.2 (h s (beq_iff_eq.1 hs))

theorem denied_le (h : ∀ s, p.verdict o s = .denied → p.verdict o' s = .denied) :
    (r.matching o p).denied ≤ (r.matching o' p).denied := by
  apply List.countP_mono_left
  intro s _ hs
  exact beq_iff_eq.2 (h s (beq_iff_eq.1 hs))

theorem countP_deliver_add_denied (o : Oracle) (c : List Subscriber) :
    c.countP (fun s => p.verdict o s == .deliver) + c.countP (fun s => p.verdict o s == .denied) =
      c.countP (p.eligible o) := by
  induction c with
  | nil => rfl
  | cons s rest ih =>
    rw [List.countP_cons, List.countP_cons, List.countP_cons, ← ih, Publication.verdict]
    cases p.eligible o s <;> cases p.permitted o s <;> simp <;> omega

theorem length_matched_add_denied (o : Oracle) :
    (r.matching o p).matched.length + (r.matching o p).denied =
      (r.declaring p.event.name).countP (p.eligible o) := by
  rw [← countP_deliver_add_denied, List.countP_eq_length_filter]
  exact congrArg (· + _) (List.length_mergeSort _)

/-- Where an oracle grants more, the same subscriptions are eligible, and those reached before are
reached in the same order; where the publisher becomes privileged, more of them are eligible, and
those reached or denied before are so again. -/
theorem matching_monotone (o o' : Oracle) :
    (o.Grants o' → (r.matching o p).matched.Sublist (r.matching o' p).matched ∧
      (r.matching o p).matched.length + (r.matching o p).denied =
        (r.matching o' p).matched.length + (r.matching o' p).denied) ∧
    (o.Promotes o' p.publisher.token →
      (r.matching o p).matched.Sublist (r.matching o' p).matched ∧
        (r.matching o p).denied ≤ (r.matching o' p).denied) := by
  constructor
  · intro h
    refine ⟨r.matched_sublist p (h.deliver p), ?_⟩
    rw [length_matched_add_denied, length_matched_add_denied]
    exact List.countP_congr fun s _ => by rw [h.eligible p s]
  · intro h
    exact ⟨r.matched_sublist p (h.deliver p), r.denied_le p (h.denied p)⟩

theorem matching_monotone_two :
    let wanting : Subscription := { interest := { events := .ofList ["door"] }, owner := default }
    let foreign := { wanting with scope := .user 101 }
    let guarded := { wanting with scope := .all, permission := some "ring" }
    let r := ((ofCeiling none).add (.ofSubscription ⟨1⟩ foreign false)).add
      (.ofSubscription ⟨2⟩ guarded false)
    let p : Publication := { event := .named "door", publisher := default, options := {} }
    let o : Oracle := { Oracle.allowAll with
      hasPermission := fun _ _ => false, isPrivileged := fun _ => false }
    let granting := { o with hasPermission := fun _ q => q == "ring" }
    let trusting := { o with isPrivileged := fun _ => true }
    let reached := fun o => (r.matching o p).matched.map Subscriber.id
    let denied := fun o => (r.matching o p).denied
    (o.Grants granting ∧ (r.matching o p).matched.Sublist (r.matching granting p).matched ∧
      (r.matching o p).matched.length + denied o =
        (r.matching granting p).matched.length + denied granting) ∧
    (o.Promotes trusting p.publisher.token ∧
      (r.matching o p).matched.Sublist (r.matching trusting p).matched ∧
        denied o ≤ denied trusting) ∧
    (reached o, denied o) = ([], 1) ∧ (reached granting, denied granting) = ([⟨2⟩], 0) ∧
      (reached trusting, denied trusting) = ([⟨1⟩], 1) := by
  intro wanting foreign guarded r p o granting trusting reached denied
  have hgrants : o.Grants granting := ⟨fun _ _ h => (nomatch h), rfl, rfl⟩
  have hpromotes : o.Promotes trusting p.publisher.token := ⟨rfl, rfl, rfl, rfl⟩
  exact ⟨⟨hgrants, (matching_monotone r p o granting).1 hgrants⟩,
    ⟨hpromotes, (matching_monotone r p o trusting).2 hpromotes⟩, by decide +kernel,
    by decide +kernel, by decide +kernel⟩

end Matching

end Registry

end EventBroker
