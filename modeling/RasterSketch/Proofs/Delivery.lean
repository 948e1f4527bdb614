import Mathlib.Data.List.Forall2
import RasterSketch.Delivery
/-!
# Deliveries of images

A delivery that is made item by item from a list (`Delivery.traverse`) is the list mapped up to its first failure
(`toList_traverse`), its parts are those of the list (`traverse_append`), and a request for as many items as the first
part of the list has gets that part (`take_traverse`).  A list is mapped without a failure when each member has an
image, and then to the images (`mapM_eq_ok`).
-/
namespace RasterSketch

/-! ## Results of a list -/

section

variable {ε ε' α β γ : Type}

theorem bind_eq_ok {x : Except ε α} {f : α → Except ε β} {b : β} :
    x >>= f = .ok b ↔ ∃ a, x = .ok a ∧ f a = .ok b := by
  cases x with
  | error e => exact ⟨fun h => (by cases h), fun ⟨_, h, _⟩ => (by cases h)⟩
  | ok a => exact ⟨fun h => ⟨a, rfl, h⟩, fun ⟨_, h, h'⟩ => (by cases h; exact h')⟩

theorem bind_pure_eq_ok {x : Except ε α} {f : α → β} {b : β} :
    (x >>= fun a => pure (f a)) = .ok b ↔ ∃ a, x = .ok a ∧ f a = b := by
  rw [bind_eq_ok]
  constructor
  · rintro ⟨a, ha, h⟩
    exact ⟨a, ha, Except.ok.inj h⟩
  · rintro ⟨a, ha, rfl⟩
    exact ⟨a, ha, rfl⟩

theorem map_eq_ok {x : Except ε α} {f : α → β} {b : β} : f <$> x = .ok b ↔ ∃ a, x = .ok a ∧ f a = b := by
  cases x with
  | error e => exact ⟨fun h => (by cases h), fun ⟨_, h, _⟩ => (by cases h)⟩
  | ok a => exact ⟨fun h => ⟨a, rfl, by cases h; rfl⟩, fun ⟨_, h, h'⟩ => (by cases h; rw [← h']; rfl)⟩

theorem mapError_eq_ok {x : Except ε α} {f : ε → ε'} {a : α} : x.mapError f = .ok a ↔ x = .ok a := by
  cases x with
  | error e => exact ⟨fun h => (by cases h), fun h => (by cases h)⟩
  | ok b => exact ⟨fun h => (by cases h; rfl), fun h => (by cases h; rfl)⟩

/-- A check that has been passed. -/
theorem guard_eq_ok {p : Prop} [Decidable p] {e : ε} {f : α → Except ε β} {x : Except ε β} {b : β} :
    (if p then throw e >>= f else x) = .ok b ↔ ¬ p ∧ x = .ok b := by
  split
  · exact ⟨fun h => (by cases h), fun ⟨hp, _⟩ => absurd ‹p› hp⟩
  · exact ⟨fun h => ⟨‹_›, h⟩, fun h => h.2⟩

/-- The value of a result that has one. -/
def valueOf [Inhabited α] : Except ε α → α
  | .ok a => a
  | .error _ => default

theorem eq_ok_valueOf [Inhabited α] {x : Except ε α} {a : α} (h : x = .ok a) : x = .ok (valueOf x) := by
  rw [h]; rfl

/-- **A list is mapped without a failure when each member is, and then to the images of its members.** -/
theorem mapM_eq_ok [Inhabited β] {f : α → Except ε β} : ∀ {l : List α} {bs : List β},
    l.mapM f = .ok bs ↔ (∀ a ∈ l, f a = .ok (valueOf (f a))) ∧ bs = l.map fun a => valueOf (f a)
  | [], bs => by
    rw [List.mapM_nil]
    exact ⟨fun h => (by cases h; exact ⟨fun _ ha => (by cases ha), rfl⟩), fun ⟨_, h⟩ => (by rw [h]; rfl)⟩
  | a :: l, bs => by
    rw [List.mapM_cons, bind_eq_ok]
    constructor
    · rintro ⟨b, hb, h⟩
      obtain ⟨cs, hcs, h⟩ := bind_eq_ok.1 h
      obtain ⟨hl, rfl⟩ := mapM_eq_ok.1 hcs
      cases h
      refine ⟨fun x hx => ?_, by rw [List.map_cons, hb]; rfl⟩
      rcases List.mem_cons.1 hx with rfl | hx
      · exact eq_ok_valueOf hb
      · exact hl x hx
    · rintro ⟨h, rfl⟩
      refine ⟨_, h a List.mem_cons_self, ?_⟩
      have hl : l.mapM f = .ok (l.map fun a => valueOf (f a)) :=
        mapM_eq_ok.2 ⟨fun x hx => h x (List.mem_cons_of_mem a hx), rfl⟩
      rw [hl]
      rfl

/-- Mapping by two functions at once is mapping by one after the other, as far as there are no failures. -/
theorem mapM_bind_eq_ok {f : α → Except ε β} {g : β → Except ε γ} : ∀ {l : List α} {cs : List γ},
    (l.mapM fun a => f a >>= g) = .ok cs → ∃ bs, l.mapM f = .ok bs ∧ bs.mapM g = .ok cs
  | [], cs, h => by
    rw [List.mapM_nil] at h
    exact ⟨[], List.mapM_nil, by rw [List.mapM_nil]; exact h⟩
  | a :: l, cs, h => by
    rw [List.mapM_cons] at h
    obtain ⟨c, hc, h⟩ := bind_eq_ok.1 h
    obtain ⟨b, hb, hg⟩ := bind_eq_ok.1 hc
    obtain ⟨cs', hcs, h⟩ := bind_eq_ok.1 h
    obtain ⟨bs, hbs, hgs⟩ := mapM_bind_eq_ok hcs
    cases h
    refine ⟨b :: bs, ?_, ?_⟩
    · rw [List.mapM_cons, hb, hbs]; rfl
    · rw [List.mapM_cons, hg, hgs]; rfl

/-- Members that each have an image are mapped to such images. -/
theorem mapM_forall₂ {f : α → Except ε β} {r : α → β → Prop} : ∀ {l : List α},
    (∀ a ∈ l, ∃ b, f a = .ok b ∧ r a b) → ∃ bs, l.mapM f = .ok bs ∧ List.Forall₂ r l bs
  | [], _ => ⟨[], List.mapM_nil, .nil⟩
  | a :: l, h => by
    obtain ⟨b, hb, hr⟩ := h a List.mem_cons_self
    obtain ⟨bs, hbs, hrs⟩ := mapM_forall₂ fun x hx => h x (List.mem_cons_of_mem a hx)
    refine ⟨b :: bs, ?_, .cons hr hrs⟩
    rw [List.mapM_cons, hb, hbs]
    rfl

theorem mapM_eq_ok_iff_forall₂ {f : α → Except ε β} : ∀ {l : List α} {bs : List β},
    l.mapM f = .ok bs ↔ List.Forall₂ (fun a b => f a = .ok b) l bs
  | [], bs => by
    rw [List.forall₂_nil_left_iff, List.mapM_nil]
    exact ⟨fun h => (Except.ok.inj h).symm, fun h => congrArg Except.ok h.symm⟩
  | a :: l, bs => by
    rw [List.forall₂_cons_left_iff, List.mapM_cons, bind_eq_ok]
    constructor
    · rintro ⟨b, hb, h⟩
      obtain ⟨bs', hbs, rfl⟩ := bind_pure_eq_ok.1 h
      exact ⟨b, bs', hb, mapM_eq_ok_iff_forall₂.1 hbs, rfl⟩
    · rintro ⟨b, bs', hb, hbs, rfl⟩
      exact ⟨b, hb, bind_pure_eq_ok.2 ⟨bs', mapM_eq_ok_iff_forall₂.2 hbs, rfl⟩⟩

theorem exists_of_mapM_error {f : α → Except ε β} {e : ε} : ∀ {l : List α}, l.mapM f = .error e → ∃ a ∈ l, f a = .error e
  | [], h => by cases h
  | a :: l, h => by
    rw [List.mapM_cons] at h
    cases ha : f a with
    | error e' =>
      rw [ha] at h
      cases h
      exact ⟨a, List.mem_cons_self, ha⟩
    | ok b =>
      cases hl : l.mapM f with
      | error e' =>
        rw [ha, hl] at h
        cases h
        obtain ⟨a', ha', he⟩ := exists_of_mapM_error hl
        exact ⟨a', List.mem_cons_of_mem _ ha', he⟩
      | ok bs =>
        rw [ha, hl] at h
        cases h

theorem mapM_all {f : α → Except ε β} {p : β → Prop} {l : List α} (h : ∀ a ∈ l, ∃ b, f a = .ok b ∧ p b) :
    ∃ bs, l.mapM f = .ok bs ∧ ∀ b ∈ bs, p b := by
  obtain ⟨bs, hbs, hall⟩ := mapM_forall₂ (r := fun _ b => p b) h
  refine ⟨bs, hbs, fun b hb => ?_⟩
  obtain ⟨i, hi, rfl⟩ := List.mem_iff_getElem.1 hb
  exact hall.get (by rw [hall.length_eq]; exact hi) hi

theorem mapM_congr {f g : α → Except ε β} : ∀ {l : List α}, (∀ a ∈ l, f a = g a) → l.mapM f = l.mapM g
  | [], _ => rfl
  | a :: l, h => by
    rw [List.mapM_cons, List.mapM_cons, h a List.mem_cons_self, mapM_congr fun b hb => h b (List.mem_cons_of_mem a hb)]

theorem mapM_append_eq_ok {f : α → Except ε β} {xs ys : List α} {bs : List β} :
    (xs ++ ys).mapM f = .ok bs ↔ ∃ as cs, xs.mapM f = .ok as ∧ ys.mapM f = .ok cs ∧ bs = as ++ cs := by
  rw [List.mapM_append, bind_eq_ok]
  constructor
  · rintro ⟨as, ha, h⟩
    obtain ⟨cs, hc, h⟩ := bind_eq_ok.1 h
    cases h
    exact ⟨as, cs, ha, hc, rfl⟩
  · rintro ⟨as, cs, ha, hc, rfl⟩
    exact ⟨as, ha, by rw [hc]; rfl⟩

/-- What there is, by evaluation. -/
theorem exists_ok {x : Except ε α} (h : x.toBool = true) : ∃ a, x = .ok a := by
  cases x with
  | error e => cases h
  | ok a => exact ⟨a, rfl⟩

theorem exists_error {x : Except ε α} (h : x.toBool = false) : ∃ e, x = .error e := by
  cases x with
  | error e => exact ⟨e, rfl⟩
  | ok a => cases h

theorem exists_ok_of_any {x : Except ε α} {p : α → Bool} (h : x.toOption.any p = true) :
    ∃ a, x = .ok a ∧ p a = true := by
  cases x with
  | error e => cases h
  | ok a => exact ⟨a, rfl, h⟩

end

/-! ## Images of a list -/

namespace Delivery

variable {ε α β : Type}

theorem traverse_append (f : β → Except ε α) : ∀ xs ys : List β,
    (traverse f xs).append (fun _ => traverse f ys) = traverse f (xs ++ ys)
  | [], ys => rfl
  | x :: xs, ys => by
    simp only [List.cons_append, traverse]
    cases f x with
    | error e => rfl
    | ok a => simp only [append, traverse_append f xs ys]

theorem traverse_map {γ : Type} (f : β → Except ε α) (g : γ → β) : ∀ xs : List γ,
    traverse f (xs.map g) = traverse (fun x => f (g x)) xs
  | [] => rfl
  | x :: xs => by
    simp only [List.map_cons, traverse, traverse_map f g xs]

theorem traverse_congr {f g : β → Except ε α} : ∀ {xs : List β}, (∀ x ∈ xs, f x = g x) →
    traverse f xs = traverse g xs
  | [], _ => rfl
  | x :: xs, h => by
    simp only [traverse, h x List.mem_cons_self, traverse_congr fun y hy => h y (List.mem_cons_of_mem x hy)]

theorem ofList_eq_traverse : ∀ as : List α, (ofList as : Delivery ε α) = traverse .ok as
  | [] => rfl
  | a :: as => by simp only [ofList, traverse, ofList_eq_traverse as]

theorem toList_item (a : α) (rest : Unit → Delivery ε α) :
    (item a rest).toList = (a :: ·) <$> (rest ()).toList := by
  unfold toList
  simp only [failure, items]
  cases (rest ()).failure <;> rfl

/-- **The items of a list's images are the images**, up to the first member that has none. -/
theorem toList_traverse (f : β → Except ε α) : ∀ xs : List β, (traverse f xs).toList = xs.mapM f
  | [] => rfl
  | x :: xs => by
    rw [List.mapM_cons, traverse]
    cases f x with
    | error e => rfl
    | ok a =>
      dsimp only
      rw [toList_item, toList_traverse f xs]
      rfl

/-- How a request ends that was served unless there was a failure. -/
def Ending.ofFailure : Option ε → Ending ε
  | none => .served
  | some e => .failed e

/-- **A request for as many items as a first part of the list has gets that part**, or as much of it as has images. -/
theorem take_traverse (f : β → Except ε α) : ∀ xs ys : List β,
    ((traverse f (xs ++ ys)).take xs.length).items = (traverse f xs).items ∧
      ((traverse f (xs ++ ys)).take xs.length).ending = .ofFailure (traverse f xs).failure
  | [], ys => ⟨rfl, rfl⟩
  | x :: xs, ys => by
    simp only [List.cons_append, List.length_cons, traverse]
    cases f x with
    | error e => exact ⟨rfl, rfl⟩
    | ok a =>
      obtain ⟨hi, he⟩ := take_traverse f xs ys
      exact ⟨congrArg (a :: ·) hi, he⟩

/-! ## Walks that fail -/

theorem toList_eq_ok {d : Delivery ε α} {as : List α} : d.toList = .ok as ↔ d.failure = none ∧ d.items = as := by
  unfold toList
  cases d.failure with
  | none => exact ⟨fun h => ⟨rfl, Except.ok.inj h⟩, fun h => congrArg _ h.2⟩
  | some e => exact ⟨fun h => (by cases h), fun h => (by cases h.1)⟩

theorem toList_eq_error {d : Delivery ε α} {e : ε} : d.toList = .error e ↔ d.failure = some e := by
  unfold toList
  cases d.failure with
  | none => exact ⟨fun h => (by cases h), fun h => (by cases h)⟩
  | some e' => exact ⟨fun h => (by cases h; rfl), fun h => (by cases h; rfl)⟩

theorem getElem?_items {f : β → Except ε α} : ∀ {l : List β} {i : Nat} {a : α},
    (traverse f l).items[i]? = some a → ∃ x, l[i]? = some x ∧ f x = .ok a
  | [], i, a, h => by cases h
  | x :: l, i, a, h => by
    rw [traverse] at h
    cases hx : f x with
    | error e => rw [hx] at h; cases h
    | ok b =>
      rw [hx] at h
      match i with
      | 0 => cases h; exact ⟨x, rfl, hx⟩
      | i + 1 => exact getElem?_items (l := l) h

theorem exists_of_mem_items {f : β → Except ε α} {l : List β} {a : α} (h : a ∈ (traverse f l).items) :
    ∃ x ∈ l, f x = .ok a := by
  obtain ⟨i, hi, rfl⟩ := List.mem_iff_getElem.1 h
  obtain ⟨x, hx, hfx⟩ := getElem?_items (List.getElem?_eq_getElem hi)
  exact ⟨x, List.mem_of_getElem? hx, hfx⟩

/-- The items of a list's images stand in the order of the list. -/
theorem pairwise_items {f : β → Except ε α} {l : List β} {r : β → β → Prop} {q : α → α → Prop} (hl : l.Pairwise r)
    (hq : ∀ x y a c, r x y → f x = .ok a → f y = .ok c → q a c) : (traverse f l).items.Pairwise q := by
  rw [List.pairwise_iff_getElem] at hl ⊢
  intro i j hi hj hij
  obtain ⟨x, hx, hfx⟩ := getElem?_items (List.getElem?_eq_getElem hi)
  obtain ⟨y, hy, hfy⟩ := getElem?_items (List.getElem?_eq_getElem hj)
  obtain ⟨hi', rfl⟩ := List.getElem?_eq_some_iff.1 hx
  obtain ⟨hj', rfl⟩ := List.getElem?_eq_some_iff.1 hy
  exact hq _ _ _ _ (hl i j hi' hj' hij) hfx hfy

/-- A walk that fails does so at the member behind those that have given an item. -/
theorem exists_of_failure {f : β → Except ε α} {e : ε} : ∀ {l : List β}, (traverse f l).failure = some e →
    ∃ x, l[(traverse f l).items.length]? = some x ∧ f x = .error e
  | [], h => by cases h
  | x :: l, h => by
    rw [traverse] at h ⊢
    cases hx : f x with
    | error e' =>
      rw [hx] at h
      cases h
      exact ⟨x, rfl, hx⟩
    | ok a =>
      rw [hx] at h
      exact exists_of_failure (l := l) h

theorem length_items {f : β → Except ε α} : ∀ {l : List β}, (traverse f l).failure = none →
    (traverse f l).items.length = l.length
  | [], _ => rfl
  | x :: l, h => by
    rw [traverse] at h ⊢
    cases hx : f x with
    | error e => rw [hx] at h; cases h
    | ok a =>
      rw [hx] at h
      exact congrArg (· + 1) (length_items (l := l) h)

/-- **A walk in groups fails as the walk through their members does**, and gives the items of the groups before. -/
theorem traverse_flatMap {γ δ : Type} {f : β → Except ε α} {g : γ → List β} {group : γ → Except ε δ}
    {out : δ → List α} (hg : ∀ x, out <$> group x = (g x).mapM f) : ∀ xs : List γ,
    (traverse f (xs.flatMap g)).failure = (traverse group xs).failure ∧
      ∃ part, (traverse f (xs.flatMap g)).items = (traverse group xs).items.flatMap out ++ part ∧
        ((traverse group xs).failure = none → part = []) ∧
        ∀ e, (traverse group xs).failure = some e →
          ∃ x, xs[(traverse group xs).items.length]? = some x ∧ part.length < (g x).length
  | [] => ⟨rfl, [], rfl, fun _ => rfl, fun e h => by cases h⟩
  | x :: xs => by
    have hx := hg x
    rw [← toList_traverse] at hx
    rw [List.flatMap_cons, ← traverse_append, failure_append, items_append, traverse]
    cases hgx : group x with
    | error e =>
      rw [hgx] at hx
      have hfail := toList_eq_error.1 hx.symm
      rw [hfail]
      refine ⟨rfl, _, (List.append_nil _), fun h => (by cases h), fun e' _ => ⟨x, rfl, ?_⟩⟩
      obtain ⟨y, hy, -⟩ := exists_of_failure hfail
      exact (List.getElem?_eq_some_iff.1 hy).1
    | ok d =>
      rw [hgx] at hx
      obtain ⟨hnone, hitems⟩ := toList_eq_ok.1 hx.symm
      obtain ⟨hf, part, hpart, hp⟩ := traverse_flatMap hg xs
      rw [hnone, hitems]
      refine ⟨hf, part, ?_, hp⟩
      dsimp only
      rw [hpart, ← List.append_assoc]
      rfl

end Delivery

end RasterSketch
