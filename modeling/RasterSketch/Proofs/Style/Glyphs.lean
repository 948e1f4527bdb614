import RasterSketch.Proofs.Number.Whole
import RasterSketch.Proofs.Style.Brightness
import RasterSketch.Style.Ramp
/-!
# Glyphs in order

A ramp of fewer than `2 ^ 53` glyphs is looked up in order (`rampIndex_in_order`): every brightness from 0 to 255, an
integer or a double, has a place in it, black the first and white the last, and a larger one has no earlier place.

The quotient, the product and the whole part each keep the order, and the ends are kept because one and the last place
are doubles themselves.  The negative zero is a brightness too, and the one number with a sign that is met on the way.
-/
namespace RasterSketch

open Magnitude

/-! ## The negative zero -/

theorem Magnitude.num_zero : zero.num = 0 := Nat.zero_mul _

namespace Double

theorem negativeZero_div (m : Magnitude) : (finite true .zero).div (finite false m) = finite true .zero := by
  show ofRatio true (Magnitude.zero.num * m.den) (Magnitude.zero.den * m.num) = _
  rw [num_zero, Nat.zero_mul]
  rfl

theorem negativeZero_scale {n : Int} {m : Magnitude} (hn : ofInt n = .ok (.finite false m)) :
    (finite true .zero).scale n = .ok (finite true .zero) := by
  rw [scale, hn]
  show Except.ok (ofRatio true (m.num * Magnitude.zero.num) (m.den * Magnitude.zero.den)) = _
  rw [num_zero, Nat.mul_zero]
  rfl

theorem negativeZero_floor : (finite true .zero).floor = .ok 0 := by
  show Except.ok (-(Magnitude.zero.num : Int) / Magnitude.zero.den) = _
  rw [num_zero, Nat.cast_zero, Int.neg_zero, Int.zero_ediv]

/-- A double that is not less than zero has no sign, unless it is the negative zero. -/
theorem eq_finite_of_nonneg {x : Double} {q : ℚ} (hx : (Number.real x).Is q) (h0 : 0 ≤ q) :
    x = finite true .zero ∧ q = 0 ∨ ∃ m, x = finite false m ∧ m.value = q := by
  cases x with
  | finite s m =>
    have hq : (finite s m).value = q := Option.some.inj hx
    cases s with
    | false => exact .inr ⟨m, rfl, hq⟩
    | true =>
      have hneg : -m.value = q := hq
      have hm : m.value = 0 := by linarith [m.value_nonneg]
      refine .inl ⟨?_, by linarith⟩
      rw [value_injective (hm.trans value_zero.symm)]
  | infinity s => cases hx
  | nan => cases hx

end Double

/-! ## Places -/

/-- The place of a brightness in a ramp, by way of a share and a product that are rounded. -/
structure RampPlace (brightness : ℚ) (length : Nat) where
  share : Magnitude
  product : Magnitude
  share_rounds : Rounds (brightness / 255) share
  product_rounds : Rounds (((length - 1 : Int) : ℚ) * share.value) product

namespace RampPlace

variable {p q : ℚ} {length : Nat}

def index (place : RampPlace q length) : Int := ⌊place.product.value⌋

/-- The place of black. -/
def first (length : Nat) : RampPlace 0 length where
  share := .zero
  product := .zero
  share_rounds := ⟨0, 1, Nat.one_pos, by simp, rfl⟩
  product_rounds := ⟨0, 1, Nat.one_pos, by simp [value_zero], rfl⟩

variable (place : RampPlace q length) (other : RampPlace p length)

theorem index_nonneg : 0 ≤ place.index := Int.floor_nonneg.2 place.product.value_nonneg

/-- **A larger brightness has no earlier place.** -/
theorem index_mono (h1 : 1 ≤ length) (h : q ≤ p) : place.index ≤ other.index := by
  have hshare := place.share_rounds.mono other.share_rounds (div_le_div_of_nonneg_right h (by norm_num))
  have hlast : (0 : ℚ) ≤ ((length - 1 : Int) : ℚ) := by exact_mod_cast (by omega : (0 : Int) ≤ length - 1)
  exact Int.floor_le_floor (place.product_rounds.mono other.product_rounds (mul_le_mul_of_nonneg_left hshare hlast))

/-- The quotients of the ends are whole, and so nothing is lost there. -/
theorem index_of_end (h1 : 1 ≤ length) (hlength : length < 2 ^ 53) {k : Nat} (hk : k ≤ 1) (hq : q = 255 * k) :
    place.index = (length - 1) * k := by
  have hquotient : q / 255 = k := by rw [hq, mul_div_cancel_left₀ _ (by norm_num)]
  have hshare : place.share.value = k := by
    have hrounds := place.share_rounds
    rw [hquotient] at hrounds
    exact hrounds.value_eq (isValue_natCast (by omega))
  have hlast : 0 ≤ (length : Int) - 1 := by omega
  have hle : ((length : Int) - 1) * k ≤ length - 1 := mul_le_of_le_one_right hlast (by exact_mod_cast hk)
  have hproduct : place.product.value = ((length - 1) * k : Int) := by
    have hrounds := place.product_rounds
    have hcast : ((length - 1 : Int) : ℚ) * place.share.value = ((length - 1) * k : Int) := by
      rw [hshare]
      push_cast
      rfl
    rw [hcast] at hrounds
    exact hrounds.value_eq (isValue_intCast (mul_nonneg hlast (Int.natCast_nonneg k)) (by omega))
  rw [index, hproduct, Int.floor_intCast]

theorem index_le (h1 : 1 ≤ length) (hlength : length < 2 ^ 53) (hq : q ≤ 255) : place.index ≤ length - 1 := by
  have hlast : (0 : ℚ) ≤ ((length - 1 : Int) : ℚ) := by exact_mod_cast (by omega : (0 : Int) ≤ length - 1)
  have hshare : place.share.value ≤ 1 := place.share_rounds.le_one ((div_le_one (by norm_num)).2 hq)
  have hproduct : place.product.value ≤ ((length - 1 : Int) : ℚ) :=
    place.product_rounds.value_le (isValue_intCast (by omega) (by omega)) (mul_le_of_le_one_right hlast hshare)
  exact_mod_cast (Int.floor_le _).trans hproduct

end RampPlace

section

variable {q : ℚ} {length : Nat} (h1 : 1 ≤ length) (hlength : length < 2 ^ 53)

include h1 hlength

theorem rampIndex_of_share {n : Number} {share : Magnitude} (hn : n.dividedBy 255 = .ok (.finite false share))
    (hr : Rounds (q / 255) share) (hq : q ≤ 255) :
    ∃ place : RampPlace q length, rampIndex n length = .ok place.index := by
  obtain ⟨last, hlast, hvalue⟩ := Double.ofInt_exact (c := (length : Int) - 1) (by omega) (by omega)
  have hle : last.value * share.value ≤ last.value :=
    mul_le_of_le_one_right last.value_nonneg (hr.le_one ((div_le_one (by norm_num)).2 hq))
  obtain ⟨product, hproduct, hproductRounds⟩ := Double.scale_rounds hlast last.isValue hle
  rw [hvalue] at hproductRounds
  refine ⟨⟨share, product, hr, hproductRounds⟩, ?_⟩
  exact bind_eq_ok.2 ⟨_, hn, bind_eq_ok.2 ⟨_, hproduct, Double.floor_finite product⟩⟩

/-- **Every brightness has a place**, whether it is an integer or a double. -/
theorem exists_rampPlace {n : Number} (hn : n.Is q) (h0 : 0 ≤ q) (hq : q ≤ 255) :
    ∃ place : RampPlace q length, rampIndex n length = .ok place.index := by
  have hle : q / 255 ≤ 1 := (div_le_one (by norm_num)).2 hq
  cases n with
  | int k =>
    obtain rfl : (k : ℚ) = q := Option.some.inj hn
    obtain ⟨share, hshare, hr⟩ := Double.quotient_rounds (c := 255) (by exact_mod_cast h0) (by decide) isValue_one
      (by exact_mod_cast hle)
    exact rampIndex_of_share h1 hlength hshare (by exact_mod_cast hr) hq
  | real x =>
    obtain ⟨most, hmost, hvalue⟩ := Double.ofInt_exact (c := 255) (by decide) (by decide)
    rcases Double.eq_finite_of_nonneg hn h0 with ⟨rfl, rfl⟩ | ⟨m, rfl, rfl⟩
    · obtain ⟨last, hlast, -⟩ := Double.ofInt_exact (c := (length : Int) - 1) (by omega) (by omega)
      refine ⟨.first length, ?_⟩
      rw [RampPlace.index_of_end _ h1 hlength (k := 0) (by decide) (by simp), Nat.cast_zero, mul_zero]
      refine bind_eq_ok.2 ⟨_, ?_, bind_eq_ok.2 ⟨_, Double.negativeZero_scale hlast, Double.negativeZero_floor⟩⟩
      exact bind_eq_ok.2 ⟨_, hmost, congrArg Except.ok (Double.negativeZero_div most)⟩
    · push_cast at hvalue
      rw [← hvalue] at hle
      obtain ⟨share, hshare, hr⟩ := Double.div_rounds (by rw [hvalue]; norm_num) isValue_one hle
      rw [hvalue] at hr
      exact rampIndex_of_share h1 hlength (bind_eq_ok.2 ⟨_, hmost, congrArg Except.ok hshare⟩) hr hq

end

/-! ## Glyphs -/

/-- **The place of a glyph in its ramp is that glyph's place from the front**, and is never refused. -/
theorem glyphAt_eq {ramp : String} (hlength : ramp.length < 2 ^ 53) {i : Int} (h0 : 0 ≤ i) (h : i ≤ ramp.length - 1) :
    ∃ glyph, ramp.toList[i.toNat]? = some glyph ∧ glyphAt ramp i = .ok glyph := by
  have hword : fitsWord i = true := by
    unfold fitsWord
    rw [Bool.and_eq_true, decide_eq_true_eq, decide_eq_true_eq]
    omega
  have hlt : i.toNat < ramp.toList.length := by
    rw [String.length_toList]
    omega
  have hfront : ¬ i < 0 := by omega
  refine ⟨ramp.toList[i.toNat], List.getElem?_eq_getElem hlt, ?_⟩
  unfold glyphAt checkItemIndex
  simp only [hword, if_pos, hfront, if_false, List.getElem?_eq_getElem hlt]
  rfl

/-! ## Order -/

/-- Ramps of some length are looked up in order: black is the first place and white the last, a larger brightness has no
earlier place, the place of a brightness is that of a glyph, counted from the front, and no cell of a sample of bytes has
an earlier place than one of a sample with less light. -/
structure RampInOrder (length : Nat) : Prop where
  black : ∀ n : Number, n.Is 0 → rampIndex n length = .ok 0
  white : ∀ n : Number, n.Is 255 → rampIndex n length = .ok (length - 1)
  ordered : ∀ (m n : Number) (p q : ℚ), m.Is p → n.Is q → 0 ≤ p → p ≤ q → q ≤ 255 →
    ∃ i j, rampIndex m length = .ok i ∧ rampIndex n length = .ok j ∧ 0 ≤ i ∧ i ≤ j ∧ j ≤ length - 1
  found : ∀ (ramp : String) (n : Number) (q : ℚ), ramp.length = length → n.Is q → 0 ≤ q → q ≤ 255 →
    ∃ i glyph, rampIndex n length = .ok i ∧ 0 ≤ i ∧ ramp.toList[i.toNat]? = some glyph ∧ glyphAt ramp i = .ok glyph
  cells : ∀ (s t : Sample) (size size' : Int) (alpha alpha' : Bool) (c d : Cell), s.IsOfBytes → t.IsOfBytes →
    s.light ≤ t.light → Cell.ofSample s size alpha = .ok c → Cell.ofSample t size' alpha' = .ok d →
    ∃ i j, rampIndex (.real c.brightness) length = .ok i ∧ rampIndex (.real d.brightness) length = .ok j ∧ i ≤ j

/-- **Every ramp of fewer than `2 ^ 53` glyphs is looked up in order.** -/
theorem rampIndex_in_order (length : Nat) (h1 : 1 ≤ length) (hlength : length < 2 ^ 53) : RampInOrder length where
  black n hn := by
    obtain ⟨place, hplace⟩ := exists_rampPlace h1 hlength hn (by norm_num) (by norm_num)
    rw [hplace, place.index_of_end h1 hlength (k := 0) (by decide) (by simp), Nat.cast_zero, mul_zero]
  white n hn := by
    obtain ⟨place, hplace⟩ := exists_rampPlace h1 hlength hn (by norm_num) (by norm_num)
    rw [hplace, place.index_of_end h1 hlength (k := 1) (by decide) (by simp), Nat.cast_one, mul_one]
  ordered m n p q hm hn h0 hpq hq := by
    obtain ⟨place, hplace⟩ := exists_rampPlace h1 hlength hm h0 (hpq.trans hq)
    obtain ⟨other, hother⟩ := exists_rampPlace h1 hlength hn (h0.trans hpq) hq
    exact ⟨_, _, hplace, hother, place.index_nonneg, place.index_mono other h1 hpq, other.index_le h1 hlength hq⟩
  found ramp n q hramp hn h0 hq := by
    subst hramp
    obtain ⟨place, hplace⟩ := exists_rampPlace h1 hlength hn h0 hq
    obtain ⟨glyph, hglyph, hat⟩ := glyphAt_eq hlength place.index_nonneg (place.index_le h1 hlength hq)
    exact ⟨_, glyph, hplace, place.index_nonneg, hglyph, hat⟩
  cells s t size size' alpha alpha' c d hs ht hlight hc hd := by
    obtain ⟨m, hm, hmRounds⟩ := Cell.brightness_rounds hs hc
    obtain ⟨n, hn, hnRounds⟩ := Cell.brightness_rounds ht hd
    obtain ⟨place, hplace⟩ := exists_rampPlace (q := m.value) h1 hlength (n := .real (.finite false m)) rfl
      m.value_nonneg (brightness_le hmRounds hs.light_le)
    obtain ⟨other, hother⟩ := exists_rampPlace (q := n.value) h1 hlength (n := .real (.finite false n)) rfl
      n.value_nonneg (brightness_le hnRounds ht.light_le)
    rw [hm, hn]
    exact ⟨_, _, hplace, hother, place.index_mono other h1 (brightness_mono hmRounds hnRounds hlight)⟩

theorem asciiRamp_in_order : 1 ≤ asciiRamp.length ∧ asciiRamp.length < 2 ^ 53 ∧ RampInOrder asciiRamp.length :=
  ⟨by decide, by decide, rampIndex_in_order asciiRamp.length (by decide) (by decide)⟩

end RasterSketch
