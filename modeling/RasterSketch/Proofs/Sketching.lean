import Mathlib.Data.List.Induction
import Mathlib.Logic.Function.Basic
import RasterSketch.Proofs.Delivery
import RasterSketch.Session.Sketching
/-!
# Programs apart

No two lists of the programs of a session have the same place (`Sketching.Apart`), so that a step reaches the program
that it names and no other (`Sketching.changes`).  What a name stands for after a script is what its own steps have made
of it since it was made last, and a step that fails leaves the session (`Sketching.after_isolated`).
-/
namespace RasterSketch

/-! ## Changes of one program -/

namespace Program

variable {p : Program} {s t : Section} {items : List Statement}

/-- The program with another list in a section. -/
def set (p : Program) (s : Section) (items : List Statement) : Program := ofSections (Function.update p.get s items)

theorem get_set_of_ne (h : t ≠ s) : (p.set s items).get t = p.get t := by
  rw [set, get_ofSections, Function.update_of_ne h]

end Program

/-- The program that is asked for by a name, given what the name stands for. -/
def asked (name : Text) : Option Program → Except Error Program
  | some p => .ok p
  | none => .error (.key (.bare name))

namespace ProgramChange

/-- What a change makes of the program that there is, if there is one. -/
def apply (current : Except Error Program) : ProgramChange → Except Error Program
  | .new p => .ok p
  | .frame style grid => style.frame grid
  | .append s items => (fun p => p.set s (p.get s ++ items)) <$> current
  | .clear s => (fun p => p.set s []) <$> current
  | .emit style cell => do
    let p ← current
    return p.set .statements (p.statements ++ (← style.emit cell))

/-- The list that a change works on, if it does not make the program anew. -/
def section? : ProgramChange → Option Section
  | .new _ | .frame .. => none
  | .append s _ | .clear s => some s
  | .emit .. => some .statements

/-- Whether a change makes a program anew. -/
def makes : ProgramChange → Bool
  | .new _ => true
  | .frame style grid => (style.frame grid).isOk
  | .append .. | .clear _ | .emit .. => false

variable {c : ProgramChange} {p q : Program} {s t : Section}

theorem apply_error (hs : c.section? = some s) (e : Error) : c.apply (.error e) = .error e := by
  cases c with
  | new | frame => cases hs
  | append | clear | emit => rfl

theorem get_of_apply (hs : c.section? = some s) (hq : c.apply (.ok p) = .ok q) (ht : t ≠ s) : q.get t = p.get t := by
  cases c with
  | new | frame => cases hs
  | append | clear =>
    cases hs
    cases hq
    exact Program.get_set_of_ne ht
  | emit style cell =>
    cases hs
    obtain ⟨drawn, -, rfl⟩ := bind_pure_eq_ok.1 hq
    exact Program.get_set_of_ne ht

theorem exists_apply_of_makes (hc : c.makes = true) : ∃ p, ∀ current, c.apply current = .ok p := by
  cases c with
  | new p => exact ⟨p, fun _ => rfl⟩
  | frame style grid =>
    cases hp : style.frame grid with
    | error e =>
      rw [makes, hp] at hc
      cases hc
    | ok p => exact ⟨p, fun _ => hp⟩
  | append | clear | emit => cases hc

end ProgramChange

namespace SketchingStep

def name : SketchingStep → Text
  | .change name _ | .render name _ => name

/-- Whether a step makes the program that it names anew. -/
def makes : SketchingStep → Bool
  | .change _ c => c.makes
  | .render .. => false

/-- What the name of a step stands for after it: what a change has made, or what it stood for before. -/
def effect (current : Option Program) : SketchingStep → Option Program
  | .change name c => (c.apply (asked name current)).toOption.or current
  | .render .. => current

theorem effect_of_makes {s : SketchingStep} (hs : s.makes = true) (current other : Option Program) :
    s.effect current = s.effect other := by
  cases s with
  | change name c =>
    obtain ⟨p, hp⟩ := c.exists_apply_of_makes hs
    simp only [effect, hp]
    rfl
  | render => cases hs

end SketchingStep

/-! ## Lists in memory -/

namespace Sketching

variable {h : Sketching} {name : Text} {p : StoredProgram} {c : ProgramChange}

/-- The program that a name stands for, as it is in memory. -/
def program? (h : Sketching) (name : Text) : Option Program := (h.programs.find? name).map (·.read h.store)

/-- Each list of each program has a place that no other list has. -/
structure Apart (h : Sketching) : Prop where
  lt_next : ∀ {name p}, h.programs.find? name = some p → ∀ s, p.place s < h.store.next
  eq_of_place_eq : ∀ {name other p q s t}, h.programs.find? name = some p → h.programs.find? other = some q →
    p.place s = q.place t → name = other ∧ s = t

theorem apart_empty : empty.Apart := ⟨fun hp => (by cases hp), fun hp => (by cases hp)⟩

theorem find?_keep (h : Sketching) (name other : Text) (p : Program) : (h.keep name p).programs.find? other =
    if other = name then some ⟨fun s => h.store.next + s.index⟩ else h.programs.find? other :=
  Named.find?_set ..

theorem next_keep (h : Sketching) (name : Text) (p : Program) :
    (h.keep name p).store.next = h.store.next + Section.all.length := by
  rw [keep, StatementStore.next_add, List.length_map]

/-- New lists are behind all that there are. -/
theorem Apart.keep (hh : h.Apart) (name : Text) (p : Program) : (h.keep name p).Apart := by
  constructor
  · intro other q hq s
    rw [find?_keep] at hq
    rw [next_keep]
    split at hq
    · cases hq
      exact Nat.add_lt_add_left s.index_lt _
    · exact Nat.lt_add_right _ (hh.lt_next hq s)
  · intro first second q r s t hq hr heq
    rw [find?_keep] at hq hr
    split at hq <;> split at hr
    · cases hq
      cases hr
      exact ⟨‹first = name›.trans ‹second = name›.symm, Section.index_inj (Nat.add_left_cancel heq)⟩
    · cases hq
      exact absurd (hh.lt_next hr t) (by simp only [← heq]; omega)
    · cases hr
      exact absurd (hh.lt_next hq s) (by simp only [heq]; omega)
    · exact hh.eq_of_place_eq hq hr heq

theorem Apart.edit (hh : h.Apart) (place : Nat) (changed : List Statement → List Statement) :
    (h.edit place changed).Apart :=
  ⟨fun hp s => StatementStore.next_write.symm ▸ hh.lt_next hp s, hh.eq_of_place_eq⟩

theorem program?_keep (hh : h.Apart) (name other : Text) (p : Program) :
    (h.keep name p).program? other = if other = name then some p else h.program? other := by
  unfold program?
  rw [find?_keep]
  split
  · have hlist : (fun s : Section => (h.keep name p).store.read (h.store.next + s.index)) = p.get := by
      funext s
      rw [keep, StatementStore.read_add_next, List.getD_eq_getElem?_getD, List.getElem?_map, s.getElem?_all]
      rfl
    rw [Option.map_some, StoredProgram.read, hlist, Program.ofSections_get]
  · refine Option.map_congr fun q hq => congrArg Program.ofSections (funext fun s => ?_)
    exact StatementStore.read_add_of_lt (hh.lt_next hq s)

/-- **A list that is changed in its place is changed in one program**, and is one of its six lists. -/
theorem program?_edit (hh : h.Apart) (hp : h.programs.find? name = some p) (s : Section)
    (changed : List Statement → List Statement) (other : Text) : (h.edit (p.place s) changed).program? other =
      if other = name then some ((p.read h.store).set s (changed ((p.read h.store).get s))) else h.program? other := by
  have hget : (p.read h.store).get = fun t => h.store.read (p.place t) := funext fun t => Program.get_ofSections
  have hread : ∀ q t, h.programs.find? other = some q → (other = name → t ≠ s) →
      (h.edit (p.place s) changed).store.read (q.place t) = h.store.read (q.place t) := by
    intro q t hq hne
    refine StatementStore.read_write_of_ne fun heq => ?_
    obtain ⟨hname, ht⟩ := hh.eq_of_place_eq hq hp heq
    exact hne hname ht
  unfold program?
  by_cases hname : other = name
  · subst hname
    have hfind : (h.edit (p.place s) changed).programs.find? other = some p := hp
    rw [if_pos rfl, hfind, Option.map_some, Program.set, hget]
    refine congrArg some (congrArg Program.ofSections (funext fun t => ?_))
    by_cases ht : t = s
    · rw [ht, Function.update_self]
      exact StatementStore.read_write (hh.lt_next hp s)
    · rw [Function.update_of_ne ht]
      exact hread p t hp fun _ => ht
  · rw [if_neg hname]
    refine Option.map_congr fun q hq => congrArg Program.ofSections (funext fun t => ?_)
    exact hread q t hq fun h => absurd h hname

/-! ## Steps -/

section

variable {α β : Type} {x : Work α} {f : α → Work β} {g : α → β} {h' : Sketching} {a : α} {e : Error}
  {s : SketchingStep} {told : SketchingAnswer}

theorem bind_of_ok (hx : x h = .ok a h') : (x >>= f) h = f a h' := by simp only [bind, EStateM.bind, hx]

theorem bind_of_error (hx : x h = .error e h') : (x >>= f) h = .error e h' := by simp only [bind, EStateM.bind, hx]

theorem map_of_ok (hx : x h = .ok a h') : (g <$> x) h = .ok (g a) h' := by simp only [Functor.map, EStateM.map, hx]

theorem map_of_error (hx : x h = .error e h') : (g <$> x) h = .error e h' := by
  simp only [Functor.map, EStateM.map, hx]

theorem step_of_ok (hs : answer s h = .ok told h') : sketchingStep h s = (h', .ok told) := by
  unfold sketchingStep
  rw [hs]

theorem step_of_error (hs : answer s h = .error e h') : sketchingStep h s = (h', .error e) := by
  unfold sketchingStep
  rw [hs]

theorem step_of_change_ok (hc : change name c h = .ok () h') :
    sketchingStep h (.change name c) = (h', .ok (.sizes h'.sizes)) :=
  step_of_ok (bind_of_ok hc)

theorem step_of_change_error (hc : change name c h = .error e h') :
    sketchingStep h (.change name c) = (h', .error e) :=
  step_of_error (bind_of_error hc)

end

theorem find_of_some (hp : h.programs.find? name = some p) : find name h = .ok p h := by
  refine (bind_of_ok rfl).trans ?_
  rw [hp]
  rfl

theorem find_of_none (hnone : h.programs.find? name = none) : find name h = .error (.key (.bare name)) h := by
  refine (bind_of_ok rfl).trans ?_
  rw [hnone]
  rfl

theorem asked_of_some (hp : h.programs.find? name = some p) : asked name (h.program? name) = .ok (p.read h.store) := by
  rw [program?, hp]
  rfl

theorem asked_of_none (hnone : h.programs.find? name = none) :
    asked name (h.program? name) = .error (.key (.bare name)) := by
  rw [program?, hnone]
  rfl

/-- What a change does to a session: the program that it names becomes what it makes of that program alone, or it fails
and there is no difference. -/
inductive Changes (h : Sketching) (name : Text) (c : ProgramChange) : Prop
  | made {h' : Sketching} {p : Program} (happly : c.apply (asked name (h.program? name)) = .ok p)
      (hstep : sketchingStep h (.change name c) = (h', .ok (.sizes h'.sizes))) (happart : h'.Apart)
      (hprograms : ∀ other, h'.program? other = if other = name then some p else h.program? other)
  | failed {e : Error} (happly : c.apply (asked name (h.program? name)) = .error e)
      (hstep : sketchingStep h (.change name c) = (h, .error e))

theorem changes_keep (hh : h.Apart) {p : Program} (happly : c.apply (asked name (h.program? name)) = .ok p)
    (hc : change name c h = .ok () (h.keep name p)) : h.Changes name c :=
  .made happly (step_of_change_ok hc) (hh.keep name p) fun other => program?_keep hh name other p

theorem changes_edit (hh : h.Apart) (hp : h.programs.find? name = some p) {s : Section}
    {changed : List Statement → List Statement}
    (happly : c.apply (.ok (p.read h.store)) = .ok ((p.read h.store).set s (changed ((p.read h.store).get s))))
    (hc : change name c h = .ok () (h.edit (p.place s) changed)) : h.Changes name c :=
  .made (asked_of_some hp ▸ happly) (step_of_change_ok hc) (hh.edit _ _) (program?_edit hh hp s changed)

/-- What works on the program of a name fails if there is none. -/
theorem changes_find {s : Section} {f : StoredProgram → Work Unit} (hs : c.section? = some s)
    (hc : change name c = find name >>= f)
    (hsome : ∀ p, h.programs.find? name = some p → change name c h = f p h → h.Changes name c) :
    h.Changes name c := by
  cases hp : h.programs.find? name with
  | none =>
    have hfails : change name c h = .error (.key (.bare name)) h := by rw [hc, bind_of_error (find_of_none hp)]
    refine .failed ?_ (step_of_change_error hfails)
    rw [asked_of_none hp]
    exact ProgramChange.apply_error hs _
  | some p =>
    refine hsome p hp ?_
    rw [hc, bind_of_ok (find_of_some hp)]

/-- **A change reaches the program that it names and no other, and not even that one if it fails.** -/
theorem changes (hh : h.Apart) (name : Text) (c : ProgramChange) : h.Changes name c := by
  cases c with
  | new p => exact changes_keep hh rfl rfl
  | frame style grid =>
    cases hframe : style.frame grid with
    | error e =>
      refine .failed hframe (step_of_change_error ?_)
      rw [change, hframe]
      rfl
    | ok p =>
      refine changes_keep hh hframe ?_
      rw [change, hframe]
      rfl
  | append s items => exact changes_find rfl rfl fun p hp hc => changes_edit hh hp rfl hc
  | clear s => exact changes_find rfl rfl fun p hp hc => changes_edit hh hp rfl hc
  | emit style cell =>
    refine changes_find rfl rfl fun p hp hc => ?_
    cases hdrawn : style.emit cell with
    | error e =>
      rw [hdrawn] at hc
      refine .failed ?_ (step_of_change_error hc)
      rw [asked_of_some hp, ProgramChange.apply, hdrawn]
      rfl
    | ok drawn =>
      rw [hdrawn] at hc
      refine changes_edit hh hp ?_ hc
      rw [ProgramChange.apply, hdrawn]
      rfl

/-- A program that is rendered is left, like all others. -/
theorem step_render (h : Sketching) (name : Text) (part : ProgramPart) : sketchingStep h (.render name part) =
    (h, SketchingAnswer.text <$> (asked name (h.program? name) >>= fun p => (part.render p).mapError .render)) := by
  cases hp : h.programs.find? name with
  | none =>
    rw [asked_of_none hp]
    exact step_of_error (map_of_error (bind_of_error (find_of_none hp)))
  | some p =>
    have hrender : render name part h = (liftM (part.render (p.read h.store)) : Work Text) h :=
      (bind_of_ok (find_of_some hp)).trans (bind_of_ok rfl)
    rw [asked_of_some hp]
    cases ht : part.render (p.read h.store) with
    | error e =>
      rw [ht] at hrender
      rw [step_of_error (map_of_error hrender)]
      simp only [bind, Except.bind, ht]
      rfl
    | ok t =>
      rw [ht] at hrender
      rw [step_of_ok (map_of_ok hrender)]
      simp only [bind, Except.bind, ht]
      rfl

theorem apart_step (hh : h.Apart) (s : SketchingStep) : (sketchingStep h s).1.Apart := by
  cases s with
  | change name c =>
    cases changes hh name c with
    | made happly hstep happart hprograms =>
      rw [hstep]
      exact happart
    | failed happly hstep =>
      rw [hstep]
      exact hh
  | render name part =>
    rw [step_render]
    exact hh

theorem program?_step (hh : h.Apart) (s : SketchingStep) (other : Text) : (sketchingStep h s).1.program? other =
    if other = s.name then s.effect (h.program? s.name) else h.program? other := by
  have hleft : (sketchingStep h s).1 = h → s.effect (h.program? s.name) = h.program? s.name →
      (sketchingStep h s).1.program? other =
        if other = s.name then s.effect (h.program? s.name) else h.program? other := by
    intro hstep heffect
    rw [hstep, heffect]
    exact (ite_eq_right_iff.2 fun hname => hname ▸ rfl).symm
  cases s with
  | change name c =>
    cases changes hh name c with
    | made happly hstep happart hprograms =>
      simp only [SketchingStep.effect, SketchingStep.name, happly, hstep]
      exact hprograms other
    | failed happly hstep =>
      refine hleft (congrArg Prod.fst hstep) ?_
      simp only [SketchingStep.effect, SketchingStep.name, happly]
      rfl
  | render name part => exact hleft (congrArg Prod.fst (step_render h name part)) rfl

/-- A step that fails leaves the session. -/
theorem eq_of_step_error (hh : h.Apart) {s : SketchingStep} {e : Error} (he : (sketchingStep h s).2 = .error e) :
    (sketchingStep h s).1 = h := by
  cases s with
  | change name c =>
    cases changes hh name c with
    | made happly hstep happart hprograms =>
      rw [hstep] at he
      cases he
    | failed happly hstep => rw [hstep]
  | render name part => rw [step_render]

/-! ## Scripts -/

/-- The session after the steps of a script, from the first on. -/
def after (script : List SketchingStep) : Sketching := (runSession sketchingStep empty script).1

/-- The steps of a name, from the one on that made its program last. -/
def ownSteps (name : Text) (script : List SketchingStep) : List SketchingStep :=
  script.foldl (fun own s => if s.name = name then (if s.makes then [s] else own ++ [s]) else own) []

variable {script : List SketchingStep} {s : SketchingStep}

theorem after_concat : after (script ++ [s]) = (sketchingStep (after script) s).1 := by
  unfold after
  rw [runSession_append]
  rfl

theorem apart_after (script : List SketchingStep) : (after script).Apart := by
  induction script using List.reverseRecOn with
  | nil => exact apart_empty
  | append_singleton script s ih =>
    rw [after_concat]
    exact apart_step ih s

theorem program?_concat : (after (script ++ [s])).program? name =
    if name = s.name then s.effect ((after script).program? s.name) else (after script).program? name := by
  rw [after_concat]
  exact program?_step (apart_after script) s name

theorem ownSteps_concat : ownSteps name (script ++ [s]) =
    if s.name = name then (if s.makes then [s] else ownSteps name script ++ [s]) else ownSteps name script :=
  List.foldl_concat ..

/-- **What a name stands for has been made by its own steps.** -/
theorem program?_ownSteps (name : Text) (script : List SketchingStep) :
    (after script).program? name = (after (ownSteps name script)).program? name := by
  -- from the last step back, for the last one that makes the program anew is the first of those that count
  induction script using List.reverseRecOn with
  | nil => rfl
  | append_singleton script s ih =>
    rw [program?_concat, ownSteps_concat]
    by_cases hname : s.name = name
    · subst hname
      rw [if_pos rfl, if_pos rfl]
      cases hmakes : s.makes with
      | true =>
        have hsingle : after [s] = after ([] ++ [s]) := rfl
        rw [if_pos rfl, hsingle, program?_concat, if_pos rfl]
        exact SketchingStep.effect_of_makes hmakes _ _
      | false => rw [if_neg Bool.false_ne_true, program?_concat, if_pos rfl, ih]
    · rw [if_neg (Ne.symm hname), if_neg hname, ih]

theorem program?_concat_of_apply {q : Program} (hq : c.apply (asked name ((after script).program? name)) = .ok q) :
    (after (script ++ [.change name c])).program? name = some q := by
  refine program?_concat.trans ((if_pos rfl).trans ?_)
  simp only [SketchingStep.effect, SketchingStep.name, hq]
  rfl

/-- **Programs are apart, and a step is done or not.**  What a name stands for has been made by its own steps since it
was made last.  A step leaves the programs of other names; a step that fails leaves the session, and so does one that
renders; what works on one list of a program leaves its other five; and what draws a cell goes behind the statements
that there are. -/
theorem after_isolated (script : List SketchingStep) :
    (∀ name, (after script).program? name = (after (ownSteps name script)).program? name) ∧
    (∀ s name, name ≠ s.name → (after (script ++ [s])).program? name = (after script).program? name) ∧
    (∀ s e, (sketchingStep (after script) s).2 = .error e → after (script ++ [s]) = after script) ∧
    (∀ name part, sketchingStep (after script) (.render name part) = (after script, SketchingAnswer.text <$>
      (asked name ((after script).program? name) >>= fun p => (part.render p).mapError .render))) ∧
    (∀ name (c : ProgramChange), match c.apply (asked name ((after script).program? name)) with
      | .ok p => (after (script ++ [.change name c])).program? name = some p
      | .error e => (sketchingStep (after script) (.change name c)).2 = .error e) ∧
    (∀ name (c : ProgramChange) s, c.section? = some s → ∀ t, t ≠ s →
      ((after (script ++ [.change name c])).program? name).map (·.get t) =
        ((after script).program? name).map (·.get t)) ∧
    ∀ name style cell drawn p, style.emit cell = .ok drawn → (after script).program? name = some p →
      (after (script ++ [.change name (.emit style cell)])).program? name =
        some { p with statements := p.statements ++ drawn } := by
  have hapart := apart_after script
  refine ⟨fun name => program?_ownSteps name script, fun s name hname => ?_, fun s e he => ?_, step_render _,
    fun name c => ?_, fun name c s hs t ht => ?_, fun name style cell drawn p hdrawn hp => ?_⟩
  · rw [program?_concat, if_neg hname]
  · rw [after_concat, eq_of_step_error hapart he]
  · cases changes hapart name c with
    | made happly =>
      rw [happly]
      exact program?_concat_of_apply happly
    | failed happly hstep => rw [happly, hstep]
  · cases changes hapart name c with
    | failed happly hstep => rw [after_concat, hstep]
    | made happly =>
      rw [program?_concat_of_apply happly]
      cases hp : (after script).program? name with
      | none =>
        rw [hp, asked, ProgramChange.apply_error hs] at happly
        cases happly
      | some p =>
        rw [hp] at happly
        exact congrArg some (ProgramChange.get_of_apply hs happly ht)
  · refine program?_concat_of_apply ?_
    rw [hp, ProgramChange.apply, hdrawn]
    rfl

/-- Two programs with the same helper; what is done to the first does not reach the second, nor does a frame in a style
that there is not. -/
theorem second_after_first : (after [.change "a" (.new { helpers := [lerpHelper] }), .change "b" (.new {}),
      .change "b" (.append .helpers [lerpHelper]), .change "a" (.clear .helpers),
      .change "b" (.frame ⟨.bare "oil", true⟩ (.computed 1 1 1 1))]).program? "b" =
    some { helpers := [lerpHelper] } :=
  ((after_isolated _).1 _).trans rfl

end Sketching

end RasterSketch
