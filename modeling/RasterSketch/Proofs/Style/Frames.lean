import RasterSketch.Proofs.Incremental
import RasterSketch.Proofs.Number.Halves
import RasterSketch.Proofs.Sketch.Meaning
import RasterSketch.Proofs.Style.Cells
/-!
# What moving cells look like

The cells of the two moving styles stay within bounds at every frame (`Style.moving_cells_stay_in_range`): the colours
of the one are hues of a single turn, with saturations and values of a hundred at most, and its ellipses neither vanish
nor outgrow their cells by more than a half; the other keeps its colour and its size, drifts by no more than five, and
is never quite transparent.

Nothing is known of the sine and the cosine but that they lie between -1 and 1, and so only bounds are carried through
an expression (`Expr.Within`).  The clock has no bound above; what keeps the hue from below is its full turn at the
start, since at a time that is not negative the sine takes no more than sixty from it.
-/
namespace RasterSketch

open Double (Between Exactly)

/-! ## Values between bounds -/

/-- The scope of a frame of a moving style, at a time of its clock. -/
structure Scope.IsMoving (σ : Scope) (w : Waves) (clock : Text) (time : ℚ) : Prop where
  time_eq : σ.vars.find? clock = some time
  sin_eq : ∀ x, σ.call "sin" [x] = some (w.sin x)
  cos_eq : ∀ x, σ.call "cos" [x] = some (w.cos x)
  lerp_eq : ∀ a b amount, σ.call "lerpValue" [a, b, amount] = some (a + (b - a) * amount)

/-- An expression with a value between two bounds. -/
def Expr.Within (σ : Scope) (lo hi : ℚ) (e : Expr) : Prop := ∃ x, e.valueIn σ = some x ∧ lo ≤ x ∧ x ≤ hi

def Expr.HasValue (σ : Scope) (e : Expr) : Prop := ∃ x, e.valueIn σ = some x

namespace Expr

variable {σ : Scope} {e f : Expr} {a b c d : ℚ}

theorem Within.hasValue (h : e.Within σ a b) : e.HasValue σ := by
  obtain ⟨x, hx, -⟩ := h
  exact ⟨x, hx⟩

theorem HasValue.add (he : e.HasValue σ) (hf : f.HasValue σ) : (e + f).HasValue σ := by
  obtain ⟨x, hx⟩ := he
  obtain ⟨y, hy⟩ := hf
  exact ⟨x + y, valueIn_add hx hy⟩

theorem HasValue.mul (he : e.HasValue σ) (hf : f.HasValue σ) : (e * f).HasValue σ := by
  obtain ⟨x, hx⟩ := he
  obtain ⟨y, hy⟩ := hf
  exact ⟨x * y, valueIn_mul hx hy⟩

theorem hasValue_int (n : Int) : (int n).HasValue σ := ⟨n, valueIn_int n⟩

theorem hasValue_real {x : Double} (h : x.isFinite = true) : (real x).HasValue σ := ⟨x.value, valueIn_real h⟩

theorem valueIn_ofNat (n : Nat) : (no_index (OfNat.ofNat n) : Expr).valueIn σ = some (n : ℚ) := valueIn_int n

theorem hasValue_literal {m e : Nat} (h : m < 2 ^ 53) :
    (OfScientific.ofScientific m true e : Expr).HasValue σ :=
  hasValue_real (Double.between_literal h (Nat.zero_mul _ ▸ Nat.zero_le m)
    (Nat.le_mul_of_pos_right m (tenTo_pos e))).isFinite

theorem Within.mono (h : e.Within σ a b) (hc : c ≤ a) (hd : b ≤ d) : e.Within σ c d := by
  obtain ⟨x, hx, hax, hxb⟩ := h
  exact ⟨x, hx, hc.trans hax, hxb.trans hd⟩

theorem within_ofNat (n : Nat) : (no_index (OfNat.ofNat n) : Expr).Within σ n n :=
  ⟨n, valueIn_ofNat n, le_rfl, le_rfl⟩

theorem within_real {lo hi : Nat} {x : Double} (h : Between lo hi x) : (real x).Within σ lo hi := by
  obtain ⟨m, rfl, hlo, hhi⟩ := h
  exact ⟨m.value, rfl, hlo, hhi⟩

theorem Within.add (he : e.Within σ a b) (hf : f.Within σ c d) : (e + f).Within σ (a + c) (b + d) := by
  obtain ⟨x, hx, hax, hxb⟩ := he
  obtain ⟨y, hy, hcy, hyd⟩ := hf
  exact ⟨x + y, valueIn_add hx hy, add_le_add hax hcy, add_le_add hxb hyd⟩

theorem Within.mul_ofNat (he : e.Within σ a b) (n : Nat) :
    (e * (no_index (OfNat.ofNat n) : Expr)).Within σ (a * n) (b * n) := by
  obtain ⟨x, hx, hax, hxb⟩ := he
  exact ⟨x * n, valueIn_mul hx (valueIn_ofNat n), mul_le_mul_of_nonneg_right hax n.cast_nonneg,
    mul_le_mul_of_nonneg_right hxb n.cast_nonneg⟩

theorem Within.div_ofNat (he : e.Within σ a b) {n : Nat} (hn : 0 < n) :
    (e / (no_index (OfNat.ofNat n) : Expr)).Within σ (a / n) (b / n) := by
  obtain ⟨x, hx, hax, hxb⟩ := he
  have hn' : (0 : ℚ) < n := by exact_mod_cast hn
  exact ⟨x / n, valueIn_div hx (valueIn_ofNat n) hn'.ne', div_le_div_of_nonneg_right hax hn'.le,
    div_le_div_of_nonneg_right hxb hn'.le⟩

theorem Within.mod_ofNat (he : e.Within σ a b) (ha : 0 ≤ a) {n : Nat} (hn : 0 < n) :
    ∃ x, (e % (no_index (OfNat.ofNat n) : Expr)).valueIn σ = some x ∧ 0 ≤ x ∧ x < n := by
  obtain ⟨x, hx, hax, -⟩ := he
  have hn' : (0 : ℚ) < n := by exact_mod_cast hn
  exact ⟨remainder x n, valueIn_mod hx (valueIn_ofNat n) hn'.ne', remainder_mem (ha.trans hax) hn'⟩

variable {w : Waves} {clock : Text} {time : ℚ}

theorem within_sin (hw : w.Bounded) (hσ : σ.IsMoving w clock time) (he : e.HasValue σ) : e.sin.Within σ (-1) 1 := by
  obtain ⟨x, hx⟩ := he
  exact ⟨w.sin x, (valueIn_apply (.cons hx .nil)).trans (hσ.sin_eq x), hw.sin_mem x⟩

theorem within_cos (hw : w.Bounded) (hσ : σ.IsMoving w clock time) (he : e.HasValue σ) : e.cos.Within σ (-1) 1 := by
  obtain ⟨x, hx⟩ := he
  exact ⟨w.cos x, (valueIn_apply (.cons hx .nil)).trans (hσ.cos_eq x), hw.cos_mem x⟩

/-- What is between two values by a share of the way lies between them. -/
theorem within_lerp (hσ : σ.IsMoving w clock time) {least most amount : Expr} (hleast : least.valueIn σ = some a)
    (hmost : most.valueIn σ = some b) (hab : a ≤ b) (hamount : amount.Within σ 0 1) :
    (apply "lerpValue" [least, most, amount]).Within σ a b := by
  obtain ⟨x, hx, h0, h1⟩ := hamount
  have hvalue : (apply "lerpValue" [least, most, amount]).valueIn σ = some (a + (b - a) * x) :=
    (valueIn_apply (.cons hleast (.cons hmost (.cons hx .nil)))).trans (hσ.lerp_eq a b x)
  have hway : 0 ≤ b - a := sub_nonneg.2 hab
  have h0' : 0 ≤ (b - a) * x := mul_nonneg hway h0
  have h1' : (b - a) * x ≤ b - a := mul_le_of_le_one_right hway h1
  exact ⟨_, hvalue, by linarith, by linarith⟩

end Expr

theorem Double.Between.value_nonneg {lo hi : Nat} {x : Double} (h : Between lo hi x) : 0 ≤ x.value := by
  obtain ⟨m, rfl, -⟩ := h
  exact m.value_nonneg

/-! ## Frames -/

namespace Program

variable {p : Program} {w : Waves} {clock : Text} {time : ℚ}

theorem helper?_singleton {h : Statement} (hp : p.helpers = [h]) (name : Text) : p.helper? name = h.function? name := by
  rw [helper?, hp]
  cases hf : h.function? name <;> simp [hf]

/-- **The helper gives a value between two others**, evaluated through its body. -/
theorem call_lerpValue (hp : p.helpers = [lerpHelper]) (vars : Named ℚ) (depth : Nat) (a b amount : ℚ) :
    p.call w vars (depth + 1) "lerpValue" [a, b, amount] = some (a + (b - a) * amount) := by
  have hhelper : p.helper? "lerpValue" = lerpHelper.function? "lerpValue" := helper?_singleton hp _
  have hbody : ∀ σ : Scope, σ.vars.find? "a" = some a → σ.vars.find? "b" = some b →
      σ.vars.find? "amount" = some amount →
      (Expr.variable "a" + (.variable "b" - .variable "a") * .variable "amount").valueIn σ =
        some (a + (b - a) * amount) := fun σ ha hb hamount =>
    Expr.valueIn_add ha (Expr.valueIn_mul (Expr.valueIn_sub hb ha) hamount)
  have hnames : ("a" : Text) ≠ "b" ∧ ("a" : Text) ≠ "amount" ∧ ("b" : Text) ≠ "amount" := by decide
  rw [call, hhelper]
  refine hbody ⟨((vars.set "a" a).set "b" b).set "amount" amount, p.call w vars depth⟩ ?_ ?_ ?_ <;>
    simp [Named.find?_set, hnames]

theorem scope_isMoving (hp : p.helpers = [lerpHelper]) : (p.scope w (clockAt clock time)).IsMoving w clock time := by
  have hwave : ∀ name, lerpHelper.function? name = none → p.helper? name = none := fun name h =>
    (helper?_singleton hp name).trans h
  refine ⟨find?_clockAt clock time, fun x => ?_, fun x => ?_, fun a b amount => call_lerpValue hp _ _ a b amount⟩
  · show p.call w _ _ "sin" [x] = _
    rw [call, hwave _ rfl]
    rfl
  · show p.call w _ _ "cos" [x] = _
    rw [call, hwave _ rfl]
    rfl

/-- Statements that draw, at any time of a clock, what has a property. -/
def Shows (w : Waves) (clock : Text) (P : List Drawing → Prop) (group : List Statement) : Prop :=
  ∀ (p : Program) (vars : Named ℚ) (time : ℚ), 0 ≤ time → (p.scope w vars).IsMoving w clock time →
    ∃ ds, p.Draws w vars group ds ∧ P ds

end Program

/-! ## Cells -/

/-- A cell of a sample in hue, saturation and value, and its ellipse, which keeps its place and its shape. -/
def Sample.Swirls (s : Sample) (size : Int) (ds : List Drawing) : Prop :=
  ∃ hue saturation value cx cy diameter : ℚ,
    ds = [⟨"fill", [hue, saturation, value]⟩, ⟨"ellipse", [cx, cy, diameter, diameter]⟩] ∧
    (0 ≤ hue ∧ hue < 360) ∧ (40 ≤ saturation ∧ saturation ≤ 100) ∧ (60 ≤ value ∧ value ≤ 100) ∧
    (cx = s.destX + size / 2 ∧ cy = s.destY + size / 2) ∧ (1 / 2 * size ≤ diameter ∧ diameter ≤ 3 / 2 * size)

/-- A cell of a sample in its own colour, and its circle, which keeps its size and drifts about its place. -/
def Sample.Drifts (s : Sample) (size : Int) (ds : List Drawing) : Prop :=
  ∃ alpha cx cy : ℚ,
    ds = [⟨"fill", [(s.r : ℚ), (s.g : ℚ), (s.b : ℚ), alpha]⟩, ⟨"circle", [cx, cy, (size : ℚ)]⟩] ∧
    (55 ≤ alpha ∧ alpha ≤ 255) ∧ |cx - (s.destX + size / 2)| ≤ 5 ∧ |cy - (s.destY + size / 2)| ≤ 5

namespace Cell.Bounded

variable {c : Cell} {w : Waves}

/-- **The hues of a bounded cell stay within a turn, and its ellipse between half its size and one and a half.** -/
theorem psychedelic_shows (h : c.Bounded) (hw : w.Bounded) :
    ∃ group, c.psychedelic = .ok group ∧ Program.Shows w "t" (c.sample.Swirls c.cellSize) group := by
  have hturn : Between 360 360 (360.0 : Double) := Double.between_literal (by decide) (by decide) (by decide)
  have hseed : Between 360 720 (shareOf c.brightness * 360.0 + 360.0) :=
    ((shareOf_between h.brightness).mul hturn (by decide)).add hturn (by decide)
  obtain ⟨hs0, hs⟩ := h.cellSize
  obtain ⟨cx, cy, hcenter, hcx, hcy⟩ := h.exact_center
  obtain ⟨least, hleast, hleastExact⟩ :=
    Double.exists_scale_halves (by decide) (Double.exactly_fives (m := 1) (by decide)) hs0 (by omega) (by omega)
  obtain ⟨most, hmost, hmostExact⟩ :=
    Double.exists_scale_halves (by decide) (Double.exactly_fives (m := 3) (by decide)) hs0 (by omega) (by omega)
  refine ⟨_, lift_bind_eq_ok hcenter (lift_bind_eq_ok hleast (lift_bind_eq_ok hmost rfl)), ?_⟩
  intro p vars time htime hσ
  have ht : (Expr.variable "t").Within (p.scope w vars) 0 time := ⟨time, hσ.time_eq, htime, le_rfl⟩
  have hangle : ∀ (n : Int) {m : Nat}, m < 2 ^ 53 →
      (Expr.variable "t" + .int n * OfScientific.ofScientific m true 2).HasValue (p.scope w vars) := fun n m hm =>
    ht.hasValue.add ((Expr.hasValue_int n).mul (Expr.hasValue_literal hm))
  have hphase : (Expr.variable "t" + (.int c.x * 0.02 + .int c.y * 0.01)).HasValue (p.scope w vars) :=
    ht.hasValue.add (((Expr.hasValue_int c.x).mul (Expr.hasValue_literal (by decide))).add
      ((Expr.hasValue_int c.y).mul (Expr.hasValue_literal (by decide))))
  -- the seed is a full turn or more, of which the sine takes sixty at most
  obtain ⟨hue, hhue, hhue0, hhue1⟩ := (((Expr.within_real hseed).add (ht.mul_ofNat 40)).add
    ((Expr.within_sin hw hσ (hangle c.x (m := 1) (by decide))).mul_ofNat 60)).mod_ofNat (n := 360) (by norm_num)
      (by decide)
  obtain ⟨saturation, hsaturation, hsaturation0, hsaturation1⟩ := (Expr.within_ofNat 70).add
    ((Expr.within_sin hw hσ (hangle c.y (m := 2) (by decide))).mul_ofNat 30)
  obtain ⟨value, hvalue, hvalue0, hvalue1⟩ := (Expr.within_ofNat 80).add
    ((Expr.within_cos hw hσ (hangle c.x (m := 3) (by decide))).mul_ofNat 20)
  have hpulse := (((Expr.within_sin hw hσ hphase).add (Expr.within_ofNat 1)).div_ofNat (n := 2) (by decide)).mono
    (c := 0) (d := 1) (by norm_num) (by norm_num)
  have hcell : (0 : ℚ) ≤ c.cellSize := by exact_mod_cast hs0
  obtain ⟨diameter, hdiameter, hdiameter0, hdiameter1⟩ := Expr.within_lerp hσ (Expr.valueIn_real hleastExact.isFinite)
    (Expr.valueIn_real hmostExact.isFinite)
    (by rw [hleastExact.value_eq, hmostExact.value_eq]; push_cast; linarith) hpulse
  rw [hleastExact.value_eq] at hdiameter0
  rw [hmostExact.value_eq] at hdiameter1
  norm_num at hsaturation0 hsaturation1 hvalue0 hvalue1 hdiameter0 hdiameter1 hhue1
  refine ⟨_, .cons (.cons hhue (.cons hsaturation (.cons hvalue .nil))) (.cons ?_ .nil), hue, saturation, value,
    cx.value, cy.value, diameter, rfl, ⟨hhue0, hhue1⟩, ⟨hsaturation0, hsaturation1⟩, ⟨hvalue0, hvalue1⟩,
    ⟨hcx.value_eq, hcy.value_eq⟩, by linarith, by linarith⟩
  exact .cons (Expr.valueIn_real hcx.isFinite) (.cons (Expr.valueIn_real hcy.isFinite)
    (.cons hdiameter (.cons hdiameter .nil)))

/-- **The circle of a bounded cell drifts by five at most**, and is never quite transparent. -/
theorem animation_shows (h : c.Bounded) (hw : w.Bounded) :
    ∃ group, c.animation = .ok group ∧ Program.Shows w "frame" (c.sample.Drifts c.cellSize) group := by
  obtain ⟨cx, cy, hcenter, hcx, hcy⟩ := h.exact_center
  refine ⟨_, lift_bind_eq_ok hcenter rfl, ?_⟩
  intro p vars time htime hσ
  have ht : (Expr.variable "frame").Within (p.scope w vars) 0 time := ⟨time, hσ.time_eq, htime, le_rfl⟩
  have hphase : (.int c.x * 0.05 + .int c.y * 0.05 : Expr).HasValue (p.scope w vars) :=
    ((Expr.hasValue_int c.x).mul (Expr.hasValue_literal (by decide))).add
      ((Expr.hasValue_int c.y).mul (Expr.hasValue_literal (by decide)))
  obtain ⟨wave, hwave, hwave0, hwave1⟩ := (Expr.within_sin hw hσ (ht.hasValue.add hphase)).mul_ofNat 5
  obtain ⟨alpha, halpha, halpha0, halpha1⟩ := (Expr.within_ofNat 155).add
    ((Expr.within_sin hw hσ ((ht.mul_ofNat 2).hasValue.add hphase)).mul_ofNat 100)
  norm_num at hwave0 hwave1 halpha0 halpha1
  have hdrift : ∀ q : ℚ, |q + wave - q| ≤ 5 := fun q => by
    rw [add_sub_cancel_left, abs_le]
    exact ⟨hwave0, hwave1⟩
  refine ⟨_, .cons ?_ (.cons ?_ .nil), alpha, cx.value + wave, cy.value + wave, rfl, ⟨halpha0, halpha1⟩, ?_, ?_⟩
  · exact .cons (Expr.valueIn_int c.sample.r) (.cons (Expr.valueIn_int c.sample.g)
      (.cons (Expr.valueIn_int c.sample.b) (.cons halpha .nil)))
  · exact .cons (Expr.valueIn_add (Expr.valueIn_real hcx.isFinite) hwave)
      (.cons (Expr.valueIn_add (Expr.valueIn_real hcy.isFinite) hwave) (.cons (Expr.valueIn_int c.cellSize) .nil))
  · rw [hcx.value_eq]
    exact hdrift _
  · rw [hcy.value_eq]
    exact hdrift _

end Cell.Bounded

/-! ## Programs -/

namespace Style

variable {style : Style} {w : Waves} {clock : Text} {size : Int} {P : Sample → List Drawing → Prop}

/-- What is drawn for a list of samples shows those that are accepted, one after the other. -/
theorem mapM_draw_shows (config : StyleConfig) (h1 : 1 ≤ size) (hsize : OnCanvas size)
    (hemit : ∀ c : Cell, c.Bounded → c.cellSize = size →
      ∃ group, style.emit c = .ok group ∧ Program.Shows w clock (P c.sample) group) :
    ∀ {samples : List Sample}, (∀ s ∈ samples, s.Bounded) →
      ∃ groups, samples.mapM (style.draw config size) = .ok groups ∧
        Program.Shows w clock (fun ds => ∃ drawings, ds = drawings.flatten ∧
          List.Forall₂ P (samples.filter config.accepts) drawings) groups.flatten
  | [], _ => ⟨[], List.mapM_nil, fun _ _ _ _ _ => ⟨[], .nil, [], rfl, .nil⟩⟩
  | s :: samples, hs => by
    obtain ⟨groups, hgroups, hshows⟩ :=
      mapM_draw_shows config h1 hsize hemit fun t ht => hs t (List.mem_cons_of_mem s ht)
    by_cases haccepted : config.accepts s = true
    · obtain ⟨c, hc, hbounded⟩ := Cell.exists_ofSample (hs s List.mem_cons_self) h1 hsize config.includeAlpha
      obtain ⟨brightness, grown, -, -, rfl⟩ := Cell.ofSample_eq_ok.1 hc
      obtain ⟨group, hgroup, hshow⟩ := hemit _ hbounded rfl
      have hdraw : style.draw config size s = .ok group := by
        unfold draw
        rw [if_pos haccepted]
        exact lift_bind_eq_ok hc hgroup
      refine ⟨group :: groups, by rw [List.mapM_cons, hdraw, hgroups]; rfl, fun p vars time h0 hσ => ?_⟩
      obtain ⟨ds, hds, hP⟩ := hshow p vars time h0 hσ
      obtain ⟨es, hes, drawings, rfl, hall⟩ := hshows p vars time h0 hσ
      refine ⟨ds ++ drawings.flatten, hds.append hes, ds :: drawings, rfl, ?_⟩
      rw [List.filter_cons_of_pos haccepted]
      exact .cons hP hall
    · -- a group without statements draws nothing
      have hdraw : style.draw config size s = .ok [] := by
        unfold draw
        rw [if_neg haccepted]
        rfl
      refine ⟨[] :: groups, by rw [List.mapM_cons, hdraw, hgroups]; rfl, ?_⟩
      rw [List.filter_cons_of_neg haccepted]
      exact hshows

/-- A style shows samples in motion: in each frame, on a background, those that are accepted, in their order, each by
drawings that have a property. -/
def Moves (style : Style) (w : Waves) (grid : Grid) (config : StyleConfig) (samples : List Sample)
    (P : Sample → List Drawing → Prop) : Prop :=
  ∃ p, style.build grid (.ofList samples) config = .ok p ∧ ∀ n : Nat, ∃ (shade : ℚ) (drawings : List (List Drawing)),
    p.drawn w n = some (⟨"background", [shade]⟩ :: ⟨"noStroke", []⟩ :: drawings.flatten) ∧
      List.Forall₂ P (samples.filter config.accepts) drawings

theorem moves_of_frame {grid : Grid} {frame : Program} {shade : Int} {tick : Double}
    (hf : (StyleRef.style style).frame grid = .ok frame) (hclock : frame.HasClock clock tick) (htick : 0 ≤ tick.value)
    (hhelpers : frame.helpers = [lerpHelper])
    (hprologue : frame.prologue = [.callInts "background" [shade], .call "noStroke" []]) (config : StyleConfig)
    (h1 : 1 ≤ grid.cellSize) (hsize : OnCanvas grid.cellSize)
    (hemit : ∀ c : Cell, c.Bounded → c.cellSize = grid.cellSize →
      ∃ group, style.emit c = .ok group ∧ Program.Shows w clock (P c.sample) group)
    {samples : List Sample} (hs : ∀ s ∈ samples, s.Bounded) : style.Moves w grid config samples P := by
  obtain ⟨groups, hgroups, hshows⟩ := mapM_draw_shows config h1 hsize hemit hs
  -- of the program only its clock, its helper and what it draws matter
  obtain ⟨p, hp⟩ : ∃ p, p = { frame with statements := groups.flatten } := ⟨_, rfl⟩
  have hbuild : style.build grid (.ofList samples) config = .ok p := by
    unfold build
    rw [hf, drawAll_ofList, hgroups, hp]
    rfl
  have hclock' : p.HasClock clock tick := by
    rw [hp]
    exact ⟨hclock.globals_eq, hclock.epilogue_eq, hclock.tick_finite⟩
  have hparts : p.helpers = [lerpHelper] ∧ p.prologue ++ p.statements =
      .callInts "background" [shade] :: .call "noStroke" [] :: groups.flatten := by
    rw [hp]
    exact ⟨hhelpers, by rw [hprologue]; rfl⟩
  have hdraws : ∀ time, 0 ≤ time → ∃ ds, p.Draws w (Program.clockAt clock time) (p.prologue ++ p.statements) ds ∧
      ∃ drawings : List (List Drawing), ds = ⟨"background", [(shade : ℚ)]⟩ :: ⟨"noStroke", []⟩ :: drawings.flatten ∧
        List.Forall₂ P (samples.filter config.accepts) drawings := by
    intro time h0
    obtain ⟨ds, hds, drawings, rfl, hall⟩ := hshows p _ time h0 (Program.scope_isMoving hparts.1)
    rw [hparts.2]
    exact ⟨_, .cons (.cons (Expr.valueIn_int shade) .nil) (.cons .nil hds), drawings, rfl, hall⟩
  refine ⟨p, hbuild, fun n => ?_⟩
  obtain ⟨ds, hds, drawings, rfl, hall⟩ := hclock'.drawn_of_draws htick hdraws n
  exact ⟨shade, drawings, hds, hall⟩

/-- **The cells of moving styles stay in range at every frame**, whatever the sine and the cosine are. -/
theorem moving_cells_stay_in_range (w : Waves) (hw : w.Bounded) (grid : Grid) (h1 : 1 ≤ grid.cellSize)
    (hsize : grid.cellSize ≤ 2 ^ 31) (config : StyleConfig) (samples : List Sample) (hs : ∀ s ∈ samples, s.Bounded) :
    psychedelic.Moves w grid config samples (·.Swirls grid.cellSize) ∧
      animation.Moves w grid config samples (·.Drifts grid.cellSize) := by
  have hcell : OnCanvas grid.cellSize := ⟨by omega, hsize⟩
  have hslow : Between 0 1 (0.05 : Double) := Double.between_literal (by decide) (by decide) (by decide)
  have hfast : Between 0 1 (0.1 : Double) := Double.between_literal (by decide) (by decide) (by decide)
  constructor
  · refine moves_of_frame rfl ⟨rfl, rfl, hslow.isFinite⟩ hslow.value_nonneg rfl rfl config h1 hcell ?_ hs
    intro c hc hcs
    rw [← hcs]
    exact hc.psychedelic_shows hw
  · refine moves_of_frame rfl ⟨rfl, rfl, hfast.isFinite⟩ hfast.value_nonneg rfl rfl config h1 hcell ?_ hs
    intro c hc hcs
    rw [← hcs]
    exact hc.animation_shows hw

end Style

def Waves.onCircle : Waves := ⟨fun x => 2 * x / (1 + x ^ 2), fun x => (1 - x ^ 2) / (1 + x ^ 2)⟩

theorem Waves.onCircle_bounded : onCircle.Bounded := by
  have hpos : ∀ x : ℚ, 0 < 1 + x ^ 2 := fun x => by positivity
  refine ⟨fun x => ⟨?_, ?_⟩, fun x => ⟨?_, ?_⟩⟩
  · exact (le_div_iff₀ (hpos x)).2 (by nlinarith [sq_nonneg (1 + x)])
  · exact (div_le_iff₀ (hpos x)).2 (by nlinarith [sq_nonneg (1 - x)])
  · exact (le_div_iff₀ (hpos x)).2 (by linarith)
  · exact (div_le_iff₀ (hpos x)).2 (by nlinarith [sq_nonneg x])

/-- Two samples on the far edge of a canvas, of which one is transparent. -/
def edgeSamples : List Sample := [⟨98, 50, 255, 128, 0, 255, 392, 200⟩, ⟨98, 52, 0, 0, 0, 0, 392, 208⟩]

theorem Style.edge_stays_in_range :
    Waves.onCircle.Bounded ∧ (1 : Int) ≤ 8 ∧ (8 : Int) ≤ 2 ^ 31 ∧ (∀ s ∈ edgeSamples, s.Bounded) ∧
      psychedelic.Moves .onCircle ⟨100, 100, 4.0, 400, 400, 2, 8⟩ {} edgeSamples (·.Swirls 8) ∧
      animation.Moves .onCircle ⟨100, 100, 4.0, 400, 400, 2, 8⟩ {} edgeSamples (·.Drifts 8) := by
  have hs : ∀ s ∈ edgeSamples, s.Bounded := by
    intro s hs
    fin_cases hs
    · exact ⟨by decide, ⟨by decide, by decide⟩, ⟨by decide, by decide⟩⟩
    · exact ⟨by decide, ⟨by decide, by decide⟩, ⟨by decide, by decide⟩⟩
  exact ⟨Waves.onCircle_bounded, by decide, by decide, hs,
    moving_cells_stay_in_range .onCircle Waves.onCircle_bounded ⟨100, 100, 4.0, 400, 400, 2, 8⟩ (by decide) (by decide)
      {} edgeSamples hs⟩

end RasterSketch
