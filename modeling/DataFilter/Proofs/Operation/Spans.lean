import DataFilter.Operation.Table
import DataFilter.Proofs.Number.TowardZero

/-!
# Arithmetic of instants and durations

Differences of instants are exact, and so are sums and differences with durations wherever the
result is in the calendar. Durations have two limits. A sum or difference of theirs is exact if it is
no longer than `2^63 - 1` milliseconds, and overflows if it is, as long as its seconds still fit a
64-bit word: beyond that they are reduced to the word. A product is exact as long as its seconds stay
inside a word, so it may be longer than any sum.

A duration is multiplied and divided by numbers of 32 bits only. A quotient is always there, but it
is put together of the whole seconds and the nanoseconds beyond them, each divided toward zero. A
product that is divided again comes back if both divisions are even, or if it is negative: then the
two parts have different signs, and what they lose cancels. Else one nanosecond is missing.
-/

namespace DataFilter

/-! ## Quotients of durations -/

namespace Duration

variable {a d p : Duration} {n : Int}

/-- The whole seconds of the duration, in nanoseconds. -/
def wholeSeconds (a : Duration) : Int := a.nanoseconds / second * second

/-- The nanoseconds beyond the whole seconds. -/
def beyondSeconds (a : Duration) : Int := a.nanoseconds % second

theorem wholeSeconds_add (a : Duration) : a.wholeSeconds + a.beyondSeconds = a.nanoseconds := by
  unfold wholeSeconds beyondSeconds
  rw [Int.mul_comm]
  exact Int.mul_ediv_add_emod a.nanoseconds second

theorem beyondSeconds_nonneg (a : Duration) : 0 ≤ a.beyondSeconds :=
  Int.emod_nonneg _ (by decide)

theorem beyondSeconds_lt (a : Duration) : a.beyondSeconds < second :=
  Int.emod_lt_of_pos _ (by decide)

/-- The seconds of a duration stay within the limit, as this is a whole number of seconds. -/
theorem wholeSeconds_bounds (a : Duration) :
    -spanLimit ≤ a.wholeSeconds ∧ a.wholeSeconds ≤ spanLimit := by
  have lower := a.lower
  have upper := a.upper
  unfold wholeSeconds
  simp only [spanLimit, second] at lower upper ⊢
  omega

theorem wholeSeconds_of_neg (h : a.nanoseconds < 0) : a.wholeSeconds ≤ 0 := by
  unfold wholeSeconds second
  omega

theorem wholeSeconds_of_nonneg (h : 0 ≤ a.nanoseconds) : 0 ≤ a.wholeSeconds := by
  unfold wholeSeconds second
  omega

/-- A quotient is that of the whole seconds and that of the nanoseconds beyond them. -/
theorem quotient_eq (a : Duration) (nonzero : n ≠ 0) :
    a.quotient n = a.wholeSeconds.tdiv n + a.beyondSeconds.tdiv n := by
  have seconds := mul_tdiv_eq (a.nanoseconds / second) nonzero (k := second) (by decide)
  simp only [quotient, wholeSeconds, beyondSeconds]
  omega

/-- Every quotient is short enough for a duration. -/
theorem quotient_bounds (a : Duration) (nonzero : n ≠ 0) :
    -spanLimit ≤ a.quotient n ∧ a.quotient n ≤ spanLimit := by
  have parts := a.wholeSeconds_add
  have positive := a.beyondSeconds_nonneg
  have short := a.beyondSeconds_lt
  have range := a.wholeSeconds_bounds
  have upper := a.upper
  have size : (a.wholeSeconds.tdiv n).natAbs ≤ a.wholeSeconds.natAbs :=
    Int.natAbs_tdiv_le_natAbs _ _
  have size' : (a.beyondSeconds.tdiv n).natAbs ≤ a.beyondSeconds.natAbs :=
    Int.natAbs_tdiv_le_natAbs _ _
  rw [quotient_eq a nonzero]
  simp only [spanLimit, second] at range short upper ⊢
  rcases Int.lt_or_le a.nanoseconds 0 with negative | nonnegative
  · -- the two parts have different signs, so neither makes the other larger
    have sign := wholeSeconds_of_neg negative
    rcases Int.le_total 0 n with h | h
    · have first : a.wholeSeconds.tdiv n ≤ 0 := by
        have := Int.tdiv_nonneg (Int.neg_nonneg_of_nonpos sign) h
        rw [Int.neg_tdiv] at this
        omega
      have last := Int.tdiv_nonneg positive h
      omega
    · have first : 0 ≤ a.wholeSeconds.tdiv n := Int.tdiv_nonneg_of_nonpos_of_nonpos sign h
      have last := Int.tdiv_nonpos_of_nonneg_of_nonpos positive h
      omega
  · have sign := wholeSeconds_of_nonneg nonnegative
    omega

theorem div?_isSome (a : Duration) (nonzero : n ≠ 0) : ∃ q, a.div? n = some q :=
  ⟨_, dif_pos (a.quotient_bounds nonzero)⟩

section Product

variable (nonzero : n ≠ 0) (product : p.nanoseconds = d.nanoseconds * n)

include nonzero product

/-- What the two divisions leave of a product is a multiple of the divisor. -/
theorem rests_of_product :
    n * (d.nanoseconds - p.quotient n) = p.wholeSeconds.tmod n + p.beyondSeconds.tmod n := by
  have first : n * p.wholeSeconds.tdiv n + p.wholeSeconds.tmod n = p.wholeSeconds :=
    Int.mul_tdiv_add_tmod _ n
  have last : n * p.beyondSeconds.tdiv n + p.beyondSeconds.tmod n = p.beyondSeconds :=
    Int.mul_tdiv_add_tmod _ n
  have parts := p.wholeSeconds_add
  rw [product, Int.mul_comm] at parts
  rw [quotient_eq p nonzero, Int.mul_sub, Int.mul_add]
  omega

/-- A product comes back if it is negative or if the nanoseconds beyond its whole seconds are
divided evenly. -/
theorem quotient_of_product (even : p.nanoseconds < 0 ∨ n ∣ p.beyondSeconds) :
    p.quotient n = d.nanoseconds := by
  have rests := rests_of_product nonzero product
  have small := natAbs_tmod_lt_natAbs p.wholeSeconds nonzero
  have small' := natAbs_tmod_lt_natAbs p.beyondSeconds nonzero
  have positive := Int.tmod_nonneg n p.beyondSeconds_nonneg
  have less : (p.wholeSeconds.tmod n + p.beyondSeconds.tmod n).natAbs < n.natAbs := by
    rcases even with negative | dvd
    · -- one rest is not positive and the other one not negative
      have sign := tmod_nonpos n (wholeSeconds_of_neg negative)
      omega
    · rw [Int.tmod_eq_zero_of_dvd dvd]
      omega
  have none := Int.eq_zero_of_dvd_of_natAbs_lt_natAbs (Dvd.intro _ rests) less
  rw [none] at rests
  have same := (Int.mul_eq_zero.mp rests).resolve_left nonzero
  omega

/-- Any other product comes back with one nanosecond missing. -/
theorem quotient_of_uneven_product (nonnegative : 0 ≤ p.nanoseconds)
    (uneven : ¬n ∣ p.beyondSeconds) : p.quotient n = d.nanoseconds - n.sign := by
  have rests := rests_of_product nonzero product
  have small := natAbs_tmod_lt_natAbs p.wholeSeconds nonzero
  have small' := natAbs_tmod_lt_natAbs p.beyondSeconds nonzero
  have first := Int.tmod_nonneg n (wholeSeconds_of_nonneg nonnegative)
  have last := Int.tmod_nonneg n p.beyondSeconds_nonneg
  have some : p.beyondSeconds.tmod n ≠ 0 := mt Int.dvd_of_tmod_eq_zero uneven
  -- the rests add up to less than twice the divisor, and to a multiple of it
  have equal : n * (d.nanoseconds - p.quotient n - n.sign) = 0 := by
    apply Int.eq_zero_of_dvd_of_natAbs_lt_natAbs (Int.dvd_mul_right n _)
    rw [Int.mul_sub, rests, Int.mul_sign_self]
    omega
  have same := (Int.mul_eq_zero.mp equal).resolve_left nonzero
  omega

end Product

end Duration

/-! ## Results within the types -/

/-- The calendar reaches so many nanoseconds away from the beginning of 1970. -/
def Instant.Fits (n : Int) : Prop := -8334601228800000000000 ≤ n ∧ n < 8210266876800000000000

/-- The span is no longer than a sum of durations may be. -/
def Duration.Fits (n : Int) : Prop := -Duration.longest ≤ n ∧ n ≤ Duration.longest

/-- The seconds of the span fit a signed 64-bit word. -/
def Duration.InWord (n : Int) : Prop :=
  -9223372036854775808000000000 ≤ n ∧ n < 9223372036854775808000000000

/-- The seconds of the span stay strictly inside a signed 64-bit word, as those of a product do. -/
def Duration.InsideWord (n : Int) : Prop := -spanLimit ≤ n ∧ n < spanLimit

/-- The outcome of an operation whose exact result is the instant `n`. -/
structure IsInstantAt (op : Operator) (n : Int) (outcome : Except OperatorError Value) : Prop where
  fits : Instant.Fits n → ∃ t : Instant, outcome = .ok (.instant t) ∧ t.nanoseconds = n
  overflows : ¬Instant.Fits n → outcome = .error (.overflow op)

/-- The outcome of an operation whose result is a span of `n` nanoseconds in this range and an
overflow beyond it. -/
structure IsDurationIn (range : Int → Prop) (op : Operator) (n : Int)
    (outcome : Except OperatorError Value) : Prop where
  fits : range n → ∃ d : Duration, outcome = .ok (.duration d) ∧ d.nanoseconds = n
  overflows : ¬range n → outcome = .error (.overflow op)

namespace Instant

theorem fits (t : Instant) : Fits t.nanoseconds := ⟨t.lower, t.upper⟩

theorem ofNanoseconds?_of_fits {n : Int} (h : Fits n) :
    ∃ t : Instant, ofNanoseconds? n = some t ∧ t.nanoseconds = n :=
  ⟨⟨n, h.1, h.2⟩, dif_pos h, rfl⟩

theorem ofNanoseconds?_eq_some {n : Int} {t : Instant} (h : ofNanoseconds? n = some t) :
    t.nanoseconds = n := by
  unfold ofNanoseconds? at h
  split at h
  · cases h
    rfl
  · cases h

theorem ofNanoseconds?_nanoseconds (t : Instant) : ofNanoseconds? t.nanoseconds = some t :=
  dif_pos t.fits

end Instant

namespace Duration

theorem ext {d e : Duration} (h : d.nanoseconds = e.nanoseconds) : d = e := by
  cases d
  cases e
  cases h
  rfl

theorem ofNanoseconds?_of_fits {n : Int} (h : Fits n) :
    ∃ d : Duration, ofNanoseconds? n = some d ∧ d.nanoseconds = n :=
  ⟨_, dif_pos h, rfl⟩

theorem wrapSeconds_of_inWord {n : Int} (h : InWord n) : wrapSeconds n = n := by
  have := h.1
  have := h.2
  exact Int.bmod_eq_of_le_mul_two (by omega) (by omega)

/-- Sums and differences of two durations that fit are far from the ends of the word. -/
theorem inWord_of_fits {m n : Int} (first : Fits m) (second : Fits n) :
    InWord (m + n) ∧ InWord (m - n) := by
  obtain ⟨lower, upper⟩ := first
  obtain ⟨lower', upper'⟩ := second
  unfold longest at lower upper lower' upper'
  unfold InWord
  omega

theorem mul?_eq_some {d p : Duration} {n : Int} (h : d.mul? n = some p) :
    p.nanoseconds = d.nanoseconds * n := by
  unfold mul? at h
  dsimp only at h
  split at h
  · cases h
    rfl
  · cases h

theorem nanoseconds_of_div? {d q : Duration} {n : Int} (h : d.div? n = some q) :
    q.nanoseconds = d.quotient n := by
  unfold div? at h
  dsimp only at h
  split at h
  · cases h
    rfl
  · cases h

end Duration

namespace Arithmetic

variable {α : Type} {op : Arithmetic}

theorem checked_map_eq_ok {x : Option α} {f : α → Value} {v : Value}
    (h : (op.checked x).map f = .ok v) : ∃ a, x = some a ∧ f a = v := by
  cases x with
  | none => cases h
  | some a =>
      cases h
      exact ⟨a, rfl, rfl⟩

theorem isInstantAt_checked (op : Arithmetic) (n : Int) :
    IsInstantAt op.operator n ((op.checked (Instant.ofNanoseconds? n)).map .instant) where
  fits := by
    intro h
    obtain ⟨t, found, value⟩ := Instant.ofNanoseconds?_of_fits h
    rw [found]
    exact ⟨t, rfl, value⟩
  overflows := by
    intro h
    have beyond : Instant.ofNanoseconds? n = none := dif_neg h
    rw [beyond]
    rfl

/-- A sum or difference whose seconds have been reduced to a word. -/
theorem isDurationIn_checked (op : Arithmetic) (n : Int) :
    IsDurationIn Duration.Fits op.operator (Duration.wrapSeconds n)
      ((op.checked (Duration.ofNanoseconds? (Duration.wrapSeconds n))).map .duration) where
  fits := by
    intro h
    obtain ⟨d, found, value⟩ := Duration.ofNanoseconds?_of_fits h
    rw [found]
    exact ⟨d, rfl, value⟩
  overflows := by
    intro h
    have beyond : Duration.ofNanoseconds? (Duration.wrapSeconds n) = none := dif_neg h
    rw [beyond]
    rfl

/-- Where the seconds fit the word, nothing is reduced. -/
theorem isDurationIn_checked_of_inWord (op : Arithmetic) {n : Int} (h : Duration.InWord n) :
    IsDurationIn Duration.Fits op.operator n
      ((op.checked (Duration.ofNanoseconds? (Duration.wrapSeconds n))).map .duration) := by
  have reduced := op.isDurationIn_checked n
  rwa [Duration.wrapSeconds_of_inWord h] at reduced ⊢

end Arithmetic

/-! ## Factors and divisors -/

section Factor

variable {d p : Duration} {n : Integer}

theorem Duration.isDurationIn_times (d : Duration) (factor : n.isFactor = true) :
    IsDurationIn InsideWord .multiply (d.nanoseconds * n.toInt) (d.times n) where
  fits := by
    intro h
    have found : d.mul? n.toInt = some _ := dif_pos h
    rw [times, if_pos factor, found]
    exact ⟨_, rfl, rfl⟩
  overflows := by
    intro h
    have beyond : d.mul? n.toInt = none := dif_neg h
    rw [times, if_pos factor, beyond]
    rfl

theorem Duration.times_of_not_isFactor (d : Duration) (large : n.isFactor = false) :
    d.times n = .error (.overflow .multiply) := by
  rw [times, large]
  rfl

/-- A product that is there is exact, and its factor has 32 bits. -/
theorem Duration.times_eq_ok {v : Value} (h : d.times n = .ok v) :
    n.isFactor = true ∧ ∃ p : Duration, v = .duration p ∧
      p.nanoseconds = d.nanoseconds * n.toInt := by
  cases factor : n.isFactor with
  | false =>
      rw [times_of_not_isFactor d factor] at h
      cases h
  | true =>
      rw [times, factor, if_pos rfl] at h
      obtain ⟨p, found, rfl⟩ := Arithmetic.checked_map_eq_ok h
      exact ⟨rfl, p, rfl, Duration.mul?_eq_some found⟩

theorem Value.divideTime_of_zero (d : Duration) (zero : n.toInt = 0) :
    Value.divideTime (.duration d) (.integer n) = .error .divisionByZero :=
  if_pos zero

theorem Value.divideTime_of_isFactor (d : Duration) (nonzero : n.toInt ≠ 0)
    (factor : n.isFactor = true) :
    ∃ q : Duration, Value.divideTime (.duration d) (.integer n) = .ok (.duration q) ∧
      q.nanoseconds = d.quotient n.toInt := by
  obtain ⟨q, found⟩ := d.div?_isSome nonzero
  refine ⟨q, ?_, Duration.nanoseconds_of_div? found⟩
  rw [Value.divideTime, if_neg nonzero, if_pos factor, found]
  rfl

theorem Value.divideTime_of_not_isFactor (d : Duration) (large : n.isFactor = false) :
    Value.divideTime (.duration d) (.integer n) = .error (.overflow .divide) := by
  have nonzero : n.toInt ≠ 0 := by
    intro zero
    rw [Integer.isFactor, zero] at large
    cases large
  rw [Value.divideTime, if_neg nonzero, large]
  rfl

/-- A product divided by its factor again. -/
theorem Value.divideTime_of_times (nonzero : n.toInt ≠ 0) (h : d.times n = .ok (.duration p))
    (even : p.nanoseconds < 0 ∨ n.toInt ∣ p.nanoseconds % second) :
    Value.divideTime (.duration p) (.integer n) = .ok (.duration d) := by
  obtain ⟨factor, _, ⟨⟩, product⟩ := Duration.times_eq_ok h
  obtain ⟨q, quotient, value⟩ := divideTime_of_isFactor p nonzero factor
  have same : q = d :=
    Duration.ext (value.trans (Duration.quotient_of_product nonzero product even))
  rw [quotient, same]

/-- A product divided by its factor again, where the nanoseconds beyond its whole seconds are not
divided evenly. -/
theorem Value.divideTime_of_uneven_times (nonzero : n.toInt ≠ 0)
    (h : d.times n = .ok (.duration p)) (nonnegative : 0 ≤ p.nanoseconds)
    (uneven : ¬n.toInt ∣ p.nanoseconds % second) :
    ∃ q : Duration, Value.divideTime (.duration p) (.integer n) = .ok (.duration q) ∧
      q.nanoseconds = d.nanoseconds - n.toInt.sign := by
  obtain ⟨factor, _, ⟨⟩, product⟩ := Duration.times_eq_ok h
  obtain ⟨q, quotient, value⟩ := divideTime_of_isFactor p nonzero factor
  have short := Duration.quotient_of_uneven_product nonzero product nonnegative uneven
  exact ⟨q, quotient, value.trans short⟩

end Factor

/-! ## There and back -/

section Back

variable {t s : Instant} {d : Duration}

theorem Instant.back_of_add? (h : t.add? d = some s) : s.since t = d ∧ s.sub? d = some t := by
  have sum := ofNanoseconds?_eq_some h
  constructor
  · apply Duration.ext
    show s.nanoseconds - t.nanoseconds = d.nanoseconds
    omega
  · have difference : s.nanoseconds - d.nanoseconds = t.nanoseconds := by omega
    rw [sub?, difference, ofNanoseconds?_nanoseconds]

end Back

namespace OperatorTable

/-- What the operators of a table compute for instants, durations and whole numbers. -/
structure ComputesTime (table : OperatorTable) : Prop where
  /-- The difference of two instants is exact. -/
  between : ∀ t u : Instant, ∃ d : Duration,
    table.applyBinary (.instant t) .subtract (.instant u) = .ok (.duration d) ∧
      d.nanoseconds = t.nanoseconds - u.nanoseconds
  /-- So is every instant that is in the calendar. -/
  later : ∀ (t : Instant) (d : Duration),
    IsInstantAt .add (t.nanoseconds + d.nanoseconds)
        (table.applyBinary (.instant t) .add (.duration d)) ∧
      IsInstantAt .add (t.nanoseconds + d.nanoseconds)
        (table.applyBinary (.duration d) .add (.instant t))
  earlier : ∀ (t : Instant) (d : Duration),
    IsInstantAt .subtract (t.nanoseconds - d.nanoseconds)
      (table.applyBinary (.instant t) .subtract (.duration d))
  /-- Sums and differences of durations are exact or overflow, as long as their seconds fit a signed
  64-bit word. -/
  sum : ∀ d e : Duration, Duration.InWord (d.nanoseconds + e.nanoseconds) →
    IsDurationIn Duration.Fits .add (d.nanoseconds + e.nanoseconds)
      (table.applyBinary (.duration d) .add (.duration e))
  difference : ∀ d e : Duration, Duration.InWord (d.nanoseconds - e.nanoseconds) →
    IsDurationIn Duration.Fits .subtract (d.nanoseconds - e.nanoseconds)
      (table.applyBinary (.duration d) .subtract (.duration e))
  /-- Those of two durations that are themselves no longer than a sum always do. -/
  sum_of_fits : ∀ d e : Duration, Duration.Fits d.nanoseconds → Duration.Fits e.nanoseconds →
    IsDurationIn Duration.Fits .add (d.nanoseconds + e.nanoseconds)
        (table.applyBinary (.duration d) .add (.duration e)) ∧
      IsDurationIn Duration.Fits .subtract (d.nanoseconds - e.nanoseconds)
        (table.applyBinary (.duration d) .subtract (.duration e))
  /-- Whatever their length, it is the sum with its seconds reduced to the word that comes back or
  overflows. Only products are long enough to make a difference. -/
  sum_reduced : ∀ d e : Duration,
    IsDurationIn Duration.Fits .add (Duration.wrapSeconds (d.nanoseconds + e.nanoseconds))
        (table.applyBinary (.duration d) .add (.duration e)) ∧
      IsDurationIn Duration.Fits .subtract (Duration.wrapSeconds (d.nanoseconds - e.nanoseconds))
        (table.applyBinary (.duration d) .subtract (.duration e))
  /-- Products by numbers of 32 bits are exact as long as their seconds stay inside a word, and
  overflow beyond. -/
  product : ∀ (d : Duration) (n : Integer), n.isFactor = true →
    IsDurationIn Duration.InsideWord .multiply (d.nanoseconds * n.toInt)
        (table.applyBinary (.duration d) .multiply (.integer n)) ∧
      IsDurationIn Duration.InsideWord .multiply (d.nanoseconds * n.toInt)
        (table.applyBinary (.integer n) .multiply (.duration d))
  /-- Larger numbers are refused. -/
  product_refused : ∀ (d : Duration) (n : Integer), n.isFactor = false →
    table.applyBinary (.duration d) .multiply (.integer n) = .error (.overflow .multiply) ∧
      table.applyBinary (.integer n) .multiply (.duration d) = .error (.overflow .multiply)
  /-- Division fails by zero and by larger numbers only. -/
  quotient : ∀ (d : Duration) (n : Integer), n.toInt ≠ 0 → n.isFactor = true →
    ∃ q : Duration, table.applyBinary (.duration d) .divide (.integer n) = .ok (.duration q)
  quotient_by_zero : ∀ (d : Duration) (n : Integer), n.toInt = 0 →
    table.applyBinary (.duration d) .divide (.integer n) = .error .divisionByZero
  quotient_refused : ∀ (d : Duration) (n : Integer), n.isFactor = false →
    table.applyBinary (.duration d) .divide (.integer n) = .error (.overflow .divide)
  /-- A later instant leads back, both to the span and to the instant. -/
  back : ∀ (t s : Instant) (d : Duration),
    table.applyBinary (.instant t) .add (.duration d) = .ok (.instant s) →
      table.applyBinary (.instant s) .subtract (.instant t) = .ok (.duration d) ∧
        table.applyBinary (.instant s) .subtract (.duration d) = .ok (.instant t)
  /-- A product leads back if it is negative or its nanoseconds are divided evenly. -/
  product_back : ∀ (d p : Duration) (n : Integer), n.toInt ≠ 0 →
    table.applyBinary (.duration d) .multiply (.integer n) = .ok (.duration p) →
      (p.nanoseconds < 0 ∨ n.toInt ∣ p.nanoseconds % second) →
        table.applyBinary (.duration p) .divide (.integer n) = .ok (.duration d)
  /-- Any other product leads back to a span that is one nanosecond closer to zero. -/
  product_back_uneven : ∀ (d p : Duration) (n : Integer), n.toInt ≠ 0 →
    table.applyBinary (.duration d) .multiply (.integer n) = .ok (.duration p) →
      0 ≤ p.nanoseconds → ¬n.toInt ∣ p.nanoseconds % second →
        ∃ q : Duration, table.applyBinary (.duration p) .divide (.integer n) = .ok (.duration q) ∧
          q.nanoseconds = d.nanoseconds - n.toInt.sign

/-- Arithmetic of time is exact as far as its types and 32-bit numbers reach. -/
theorem time_is_exact : ComputesTime standard where
  between t u := ⟨t.since u, rfl, rfl⟩
  later t d := by
    have sum := Arithmetic.isInstantAt_checked .add (t.nanoseconds + d.nanoseconds)
    exact ⟨sum, sum⟩
  earlier t d := Arithmetic.isInstantAt_checked .subtract (t.nanoseconds - d.nanoseconds)
  sum d e inWord := Arithmetic.isDurationIn_checked_of_inWord .add inWord
  difference d e inWord := Arithmetic.isDurationIn_checked_of_inWord .subtract inWord
  sum_of_fits := by
    intro d e left right
    obtain ⟨sum, difference⟩ := Duration.inWord_of_fits left right
    exact ⟨Arithmetic.isDurationIn_checked_of_inWord .add sum,
      Arithmetic.isDurationIn_checked_of_inWord .subtract difference⟩
  sum_reduced d e := ⟨Arithmetic.isDurationIn_checked .add _,
    Arithmetic.isDurationIn_checked .subtract _⟩
  product d n factor := ⟨d.isDurationIn_times factor, d.isDurationIn_times factor⟩
  product_refused d n large := ⟨d.times_of_not_isFactor large, d.times_of_not_isFactor large⟩
  quotient d n nonzero factor := by
    obtain ⟨q, found, -⟩ := Value.divideTime_of_isFactor d nonzero factor
    exact ⟨q, found⟩
  quotient_by_zero d n zero := Value.divideTime_of_zero d zero
  quotient_refused d n large := Value.divideTime_of_not_isFactor d large
  back := by
    intro t s d sum
    obtain ⟨_, found, ⟨⟩⟩ := Arithmetic.checked_map_eq_ok sum
    obtain ⟨span, instant⟩ := Instant.back_of_add? found
    constructor
    · show Except.ok (Value.duration (s.since t)) = _
      rw [span]
    · show (Arithmetic.subtract.checked (s.sub? d)).map Value.instant = _
      rw [instant]
      rfl
  product_back d p n nonzero product even := Value.divideTime_of_times nonzero product even
  product_back_uneven d p n nonzero product := Value.divideTime_of_uneven_times nonzero product

/-- A number of more than 32 bits is refused where the exact product is a duration, and as a
divisor. Half a second, taken three times and divided by three, is a nanosecond short. And a product
can be so long that twice of it is less than nothing. -/
theorem time_is_not_always_exact :
    let nanoseconds : Nat → Duration := fun n => (Duration.ofNanoseconds? n).getD default
    let large : Value := .integer (.wrap 2147483648)
    (Duration.Fits ((nanoseconds 1).nanoseconds * 2147483648) ∧
        standard.applyBinary (.duration (nanoseconds 1)) .multiply large =
          .error (.overflow .multiply)) ∧
      standard.applyBinary (.duration (nanoseconds second)) .divide large =
        .error (.overflow .divide) ∧
      standard.applyBinary (.duration (nanoseconds 500000000)) .multiply (.integer (.wrap 3)) =
        .ok (.duration (nanoseconds 1500000000)) ∧
      standard.applyBinary (.duration (nanoseconds 1500000000)) .divide (.integer (.wrap 3)) =
        .ok (.duration (nanoseconds 499999999)) ∧
      ∃ long twice : Duration,
        standard.applyBinary (.duration (nanoseconds (9223372036854775 * second))) .multiply
            (.integer (.wrap 1000)) = .ok (.duration long) ∧
          long.nanoseconds = 9223372036854775000 * second ∧
          standard.applyBinary (.duration long) .add (.duration long) = .ok (.duration twice) ∧
          twice.nanoseconds = -1616 * second := by
  exact ⟨⟨⟨by decide, by decide⟩, rfl⟩, rfl, rfl, rfl, _, _, rfl, by decide, rfl, by decide⟩

end OperatorTable

end DataFilter
