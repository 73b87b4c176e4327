import EventBroker.Config

namespace EventBroker

namespace Duration

instance : LE Duration := ⟨fun d e => d.secs < e.secs ∨ d.secs = e.secs ∧ d.nanos ≤ e.nanos⟩

theorem toNanos_injective {d e : Duration} (h : d.toNanos = e.toNanos) : d = e := by
  obtain ⟨s, n, _, hn⟩ := d
  obtain ⟨s', n', _, hn'⟩ := e
  simp only [toNanos, nanosPerSec] at h hn hn'
  obtain ⟨rfl, rfl⟩ : s = s' ∧ n = n' := by omega
  rfl

theorem le_iff_toNanos_le {d e : Duration} : d ≤ e ↔ d.toNanos ≤ e.toNanos := by
  have hd := d.nanos_lt
  have he := e.nanos_lt
  change d.secs < e.secs ∨ d.secs = e.secs ∧ d.nanos ≤ e.nanos ↔ _
  simp only [toNanos, nanosPerSec] at hd he ⊢
  omega

theorem toNanos_le_max (d : Duration) : d.toNanos ≤ Duration.max.toNanos := by
  have hs := d.secs_lt
  have hn := d.nanos_lt
  simp only [toNanos, Duration.max, nanosPerSec, UInt64.size] at hs hn ⊢
  omega

theorem toNanos_ofParts (secs nanos : Nat) :
    (ofParts secs nanos).toNanos = min (secs * nanosPerSec + nanos) Duration.max.toNanos := by
  rw [ofParts]
  split
  · rename_i hfits
    have hexact : (secs + nanos / nanosPerSec) * nanosPerSec + nanos % nanosPerSec =
        secs * nanosPerSec + nanos := by
      rw [Nat.add_mul, Nat.add_assoc, Nat.div_add_mod']
    have hle := toNanos_le_max ⟨_, _, hfits, Nat.mod_lt nanos (by decide)⟩
    rw [toNanos, hexact] at hle ⊢
    exact (Nat.min_eq_left hle).symm
  · rename_i hover
    refine (Nat.min_eq_right ?_).symm
    simp only [toNanos, Duration.max, nanosPerSec, UInt64.size] at hover ⊢
    omega

theorem toNanos_mul (d : Duration) (n : Nat) :
    (d.mul n).toNanos = min (d.toNanos * n) Duration.max.toNanos := by
  have hsplit : d.toNanos * n = d.secs * n * nanosPerSec + d.nanos * n := by
    rw [toNanos, Nat.add_mul, Nat.mul_right_comm]
  rw [hsplit]
  exact toNanos_ofParts _ _

theorem toNanos_mul_mul (d : Duration) (n : Nat) {k : Nat} (hk : 0 < k) :
    ((d.mul n).mul k).toNanos = min (d.toNanos * n * k) Duration.max.toNanos := by
  rw [toNanos_mul, toNanos_mul]
  cases Nat.le_total (d.toNanos * n) Duration.max.toNanos with
  | inl hle => rw [Nat.min_eq_left hle]
  | inr hle =>
    have hgrow : ∀ m : Nat, m ≤ m * k := fun m => Nat.le_mul_of_pos_right m hk
    rw [Nat.min_eq_right hle, Nat.min_eq_right (hgrow _),
      Nat.min_eq_right (Nat.le_trans hle (hgrow _))]

end Duration

namespace Config

theorem counted_pos (n : Nat) : 0 < min (max n 1) maxCount :=
  Nat.lt_min.2 ⟨Nat.lt_of_lt_of_le Nat.one_pos (Nat.le_max_right n 1), by decide⟩

theorem toNanos_watchdogBudget (c : Config) (n : Nat) :
    (c.watchdogBudget n).toNanos =
      min (c.receiverTimeout.toNanos * max c.watchdogFactor 1 * min (max n 1) maxCount)
        Duration.max.toNanos :=
  Duration.toNanos_mul_mul _ _ (counted_pos n)

theorem watchdogBudget_mono {c c' : Config} {n n' : Nat}
    (hT : c.receiverTimeout ≤ c'.receiverTimeout) (hf : c.watchdogFactor ≤ c'.watchdogFactor)
    (hn : n ≤ n') : c.watchdogBudget n ≤ c'.watchdogBudget n' := by
  have hfactor : max c.watchdogFactor 1 ≤ max c'.watchdogFactor 1 := by omega
  have hcount : min (max n 1) maxCount ≤ min (max n' 1) maxCount := by omega
  rw [Duration.le_iff_toNanos_le] at hT ⊢
  rw [toNanos_watchdogBudget, toNanos_watchdogBudget]
  have hproduct := Nat.mul_le_mul (Nat.mul_le_mul hT hfactor) hcount
  exact Nat.le_min.2 ⟨Nat.le_trans (Nat.min_le_left _ _) hproduct, Nat.min_le_right _ _⟩

theorem receiverTimeout_le_watchdogBudget (c : Config) (n : Nat) :
    c.receiverTimeout ≤ c.watchdogBudget n := by
  have hfactor : 0 < max c.watchdogFactor 1 :=
    Nat.lt_of_lt_of_le Nat.one_pos (Nat.le_max_right _ _)
  rw [Duration.le_iff_toNanos_le, toNanos_watchdogBudget]
  refine Nat.le_min.2 ⟨?_, c.receiverTimeout.toNanos_le_max⟩
  calc c.receiverTimeout.toNanos
      ≤ c.receiverTimeout.toNanos * max c.watchdogFactor 1 := Nat.le_mul_of_pos_right _ hfactor
    _ ≤ c.receiverTimeout.toNanos * max c.watchdogFactor 1 * min (max n 1) maxCount :=
      Nat.le_mul_of_pos_right _ (counted_pos n)

theorem watchdogBudget_eq_zero_iff (c : Config) (n : Nat) :
    c.watchdogBudget n = .zero ↔ c.receiverTimeout = .zero := by
  have zero_iff : ∀ d : Duration, d = .zero ↔ d.toNanos = 0 := fun d =>
    ⟨fun h => congrArg Duration.toNanos h, fun h => Duration.toNanos_injective h⟩
  rw [zero_iff, zero_iff]
  constructor
  · intro h
    have hle := Duration.le_iff_toNanos_le.1 (c.receiverTimeout_le_watchdogBudget n)
    exact Nat.eq_zero_of_le_zero (h ▸ hle)
  · intro h
    rw [toNanos_watchdogBudget, h, Nat.zero_mul, Nat.zero_mul, Nat.zero_min]

/-- The budget is the timeout of a receiver times the factor times the number of receivers, each of
the two at least one and the number at most `2 ^ 32 - 1`, counted in nanoseconds and cut off at the
longest span. So it grows with each of the three, is never less than the timeout, and is zero only
if that is. -/
theorem watchdogBudget_exact (c : Config) (n : Nat) :
    (c.watchdogBudget n).toNanos =
        min (c.receiverTimeout.toNanos * max c.watchdogFactor 1 * min (max n 1) (UInt32.size - 1))
          Duration.max.toNanos ∧
      (∀ (c' : Config) (n' : Nat), c.receiverTimeout ≤ c'.receiverTimeout →
        c.watchdogFactor ≤ c'.watchdogFactor → n ≤ n' →
        c.watchdogBudget n ≤ c'.watchdogBudget n') ∧
      c.receiverTimeout ≤ c.watchdogBudget n ∧
      (c.watchdogBudget n = .zero ↔ c.receiverTimeout = .zero) :=
  ⟨c.toNanos_watchdogBudget n, fun _ _ hT hf hn => watchdogBudget_mono hT hf hn,
    c.receiverTimeout_le_watchdogBudget n, c.watchdogBudget_eq_zero_iff n⟩

example : ({ receiverTimeout := ⟨2 ^ 62, 400000000, by decide, by decide⟩, watchdogFactor := 3 } :
    Config).watchdogBudget 1 = ⟨3 * 2 ^ 62 + 1, 200000000, by decide, by decide⟩ := by decide

end Config

end EventBroker
