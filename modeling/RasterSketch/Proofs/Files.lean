import RasterSketch.Files.Tree
import RasterSketch.Proofs.Delivery
/-!
# Trees of files

A path is followed name by name, up to the first that leads nowhere (`Files.follow_eq_error`).  What is there is
reached, and what is not there is found not to be, unless the look for it is refused (`Files.Refuses`,
`Files.reaches_cases`): the path or a name that is come to is too long, or a directory on the way may not be searched.
A path that is no name in the system is a fault of its own, whatever the files (`Files.read_of_fault`).

A write that cannot open its file leaves the tree as it was.  Any other sets the content of this one file, to all that
was to be written or, if it is broken off, to the first part of it (`Files.write_of_open`).
-/
namespace RasterSketch

namespace Files

variable {t : Files} {p : Path} {place : Place} {content : Bytes} {fault : FileFault}

def Has (t : Files) (p : Path) : Prop := ∃ place, t.locate p = .ok place ∧ (t.entry? place).isSome = true

/-- The look for a path is refused. -/
inductive Refuses (t : Files) (p : Path) : FileFault → Prop where
  /-- The path as a whole is too long for the system. -/
  | longPath (hname : NameFault.of? p.text = none) (hlong : pathLimit < p.text.systemSize) : Refuses t p .nameTooLong
  /-- The names before it lead to a directory that may be searched, but no directory can have such a name. -/
  | longName (hname : NameFault.of? p.text = none) (hshort : p.text.systemSize ≤ pathLimit) {before after : List Text}
      {name : Text} {place : Place} (hsteps : p.steps = before ++ name :: after)
      (hleads : t.follow (t.start p) before = .ok place) (hdirectory : t.entry? place = some .directory)
      (hsearched : place ∉ t.unsearchable) (hlong : nameLimit < name.systemSize) : Refuses t p .nameTooLong
  /-- A directory on the way may not be searched. -/
  | unsearched (hname : NameFault.of? p.text = none) (hshort : p.text.systemSize ≤ pathLimit) {before after : List Text}
      {name : Text} {place : Place} (hsteps : p.steps = before ++ name :: after)
      (hleads : t.follow (t.start p) before = .ok place) (hdirectory : t.entry? place = some .directory)
      (hdenied : place ∈ t.unsearchable) : Refuses t p .denied

/-! ## Following a path -/

theorem enter_of_longName {name : Text} (h : nameLimit < name.systemSize) : enter place name = .error .nameTooLong := by
  unfold enter
  rw [if_neg, if_neg, if_pos h]
  · rintro rfl
    exact absurd h (by decide)
  · rintro rfl
    exact absurd h (by decide)

theorem longName_of_enter {name : Text} (h : enter place name = .error fault) :
    fault = .nameTooLong ∧ nameLimit < name.systemSize := by
  unfold enter at h
  split at h
  · cases h
  split at h
  · cases h
  split at h
  · rename_i hlong
    cases h
    exact ⟨rfl, hlong⟩
  · cases h

theorem step_of_directory (h : t.entry? place = some .directory) (name : Text) :
    t.step place name = if place ∈ t.unsearchable then .error .denied else enter place name := by
  unfold step
  rw [h]

/-- The faults of one name. -/
theorem step_eq_error {name : Text} (h : t.step place name = .error fault) :
    fault = .missing ∨ fault = .notDirectory ∨
    (fault = .denied ∧ t.entry? place = some .directory ∧ place ∈ t.unsearchable) ∨
    (fault = .nameTooLong ∧ t.entry? place = some .directory ∧ place ∉ t.unsearchable ∧
      nameLimit < name.systemSize) := by
  cases hentry : t.entry? place with
  | none =>
    unfold step at h
    rw [hentry] at h
    cases h
    exact .inl rfl
  | some entry =>
    cases entry with
    | file content =>
      unfold step at h
      rw [hentry] at h
      cases h
      exact .inr (.inl rfl)
    | directory =>
      rw [step_of_directory hentry] at h
      by_cases hsearched : place ∈ t.unsearchable
      · rw [if_pos hsearched] at h
        cases h
        exact .inr (.inr (.inl ⟨rfl, rfl, hsearched⟩))
      · rw [if_neg hsearched] at h
        obtain ⟨rfl, hlong⟩ := longName_of_enter h
        exact .inr (.inr (.inr ⟨rfl, rfl, hsearched, hlong⟩))

/-- **The first name that leads nowhere** is where the names have their fault. -/
theorem follow_eq_error {names : List Text} {place : Place} : t.follow place names = .error fault ↔
    ∃ before name after reached, names = before ++ name :: after ∧ t.follow place before = .ok reached ∧
      t.step reached name = .error fault := by
  constructor
  · intro h
    induction names generalizing place with
    | nil => cases h
    | cons name names ih =>
      unfold follow at h
      rw [List.foldlM_cons] at h
      cases hstep : t.step place name with
      | error cause =>
        rw [hstep] at h
        cases h
        exact ⟨[], name, names, place, rfl, rfl, hstep⟩
      | ok next =>
        rw [hstep] at h
        obtain ⟨before, name', after, reached, rfl, hleads, hfails⟩ := ih h
        refine ⟨name :: before, name', after, reached, rfl, ?_, hfails⟩
        unfold follow
        rw [List.foldlM_cons, hstep]
        exact hleads
  · rintro ⟨before, name, after, reached, rfl, hleads, hfails⟩
    unfold follow at hleads ⊢
    rw [List.foldlM_append, hleads]
    show (t.step reached name >>= fun next => after.foldlM t.step next) = _
    rw [hfails]
    rfl

theorem locate_of_name (h : NameFault.of? p.text = none) :
    t.locate p = (t.place p).mapError fun fault => .file ⟨fault, p.text⟩ := by
  unfold locate
  rw [h]

theorem place_of_short (h : p.text.systemSize ≤ pathLimit) : t.place p = t.follow (t.start p) p.steps := by
  unfold place
  rw [if_neg (Nat.not_lt.2 h)]

/-- A refusal is the fault that an operation on the path has. -/
theorem Refuses.locate_eq (h : t.Refuses p fault) : t.locate p = .error (.file ⟨fault, p.text⟩) := by
  cases h with
  | longPath hname hlong =>
    rw [locate_of_name hname]
    unfold place
    rw [if_pos hlong]
    rfl
  | longName hname hshort hsteps hleads hdirectory hsearched hlong =>
    rw [locate_of_name hname, place_of_short hshort, follow_eq_error.2 ⟨_, _, _, _, hsteps, hleads, ?_⟩]
    · rfl
    · rw [step_of_directory hdirectory, if_neg hsearched, enter_of_longName hlong]
  | unsearched hname hshort hsteps hleads hdirectory hdenied =>
    rw [locate_of_name hname, place_of_short hshort, follow_eq_error.2 ⟨_, _, _, _, hsteps, hleads, ?_⟩]
    · rfl
    · rw [step_of_directory hdirectory, if_pos hdenied]

theorem Refuses.eq {fault' : FileFault} (h : t.Refuses p fault) (h' : t.Refuses p fault') : fault = fault' := by
  cases h.locate_eq.symm.trans h'.locate_eq
  rfl

theorem fault_of_place (hname : NameFault.of? p.text = none) (h : t.place p = .error fault) :
    t.Refuses p fault ∨ fault = .missing ∨ fault = .notDirectory := by
  by_cases hlong : pathLimit < p.text.systemSize
  · unfold place at h
    rw [if_pos hlong] at h
    cases h
    exact .inl (.longPath hname hlong)
  · have hshort := Nat.le_of_not_lt hlong
    rw [place_of_short hshort] at h
    obtain ⟨before, name, after, reached, hsteps, hleads, hfails⟩ := follow_eq_error.1 h
    rcases step_eq_error hfails with rfl | rfl | ⟨rfl, hdirectory, hdenied⟩ | ⟨rfl, hdirectory, hsearched, hlong⟩
    · exact .inr (.inl rfl)
    · exact .inr (.inr rfl)
    · exact .inl (.unsearched hname hshort hsteps hleads hdirectory hdenied)
    · exact .inl (.longName hname hshort hsteps hleads hdirectory hsearched hlong)

/-! ## Looking and reading -/

/-- The answer to a look is the failure of a refusal, and no other. -/
theorem answer_of_locate {e : Error} (h : t.locate p = .error e) :
    (∃ fault, t.Refuses p fault ∧ e.answerOfLook = .error (.file ⟨fault, p.text⟩)) ∨
      (∀ fault, ¬ t.Refuses p fault) ∧ e.answerOfLook = .ok false := by
  cases hname : NameFault.of? p.text with
  | some fault =>
    have hfault : t.locate p = .error (.name fault) := by
      unfold locate
      rw [hname]
    cases h.symm.trans hfault
    exact .inr ⟨fun fault' hrefuses => (by cases hrefuses.locate_eq.symm.trans h), rfl⟩
  | none =>
    cases hplace : t.place p with
    | ok place =>
      rw [locate_of_name hname, hplace] at h
      cases h
    | error fault =>
      have hfault : e = .file ⟨fault, p.text⟩ := by
        rw [locate_of_name hname, hplace] at h
        cases h
        rfl
      subst hfault
      have hsame : ∀ {fault'}, t.Refuses p fault' → fault = fault' := fun hrefuses => by
        cases hrefuses.locate_eq.symm.trans h
        rfl
      rcases fault_of_place hname hplace with hrefuses | rfl | rfl
      · refine .inl ⟨fault, hrefuses, ?_⟩
        cases hrefuses <;> rfl
      · exact .inr ⟨fun fault' hrefuses => (by cases hsame hrefuses; cases hrefuses), rfl⟩
      · exact .inr ⟨fun fault' hrefuses => (by cases hsame hrefuses; cases hrefuses), rfl⟩

theorem not_has_of_refuses (h : t.Refuses p fault) : ¬ t.Has p := by
  rintro ⟨place, hplace, -⟩
  cases h.locate_eq.symm.trans hplace

/-- **The look for a path is refused, finds it, or finds that it is not there.** -/
theorem reaches_cases (t : Files) (p : Path) :
    (∃ fault, t.Refuses p fault ∧ t.reaches p = .error (.file ⟨fault, p.text⟩)) ∨
    (t.Has p ∧ (∀ fault, ¬ t.Refuses p fault) ∧ t.reaches p = .ok true) ∨
    (¬ t.Has p ∧ (∀ fault, ¬ t.Refuses p fault) ∧ t.reaches p = .ok false) := by
  unfold reaches
  cases hplace : t.locate p with
  | ok place =>
    have hlook : ∀ fault, ¬ t.Refuses p fault := fun fault h => by cases h.locate_eq.symm.trans hplace
    dsimp only
    cases hentry : t.entry? place with
    | some entry => exact .inr (.inl ⟨⟨place, hplace, by rw [hentry]; rfl⟩, hlook, rfl⟩)
    | none =>
      refine .inr (.inr ⟨?_, hlook, rfl⟩)
      rintro ⟨place', hplace', hsome⟩
      cases hplace.symm.trans hplace'
      rw [hentry] at hsome
      cases hsome
  | error e =>
    rcases answer_of_locate hplace with ⟨fault, hrefuses, hanswer⟩ | ⟨hlook, hanswer⟩
    · exact .inl ⟨fault, hrefuses, hanswer⟩
    · refine .inr (.inr ⟨?_, hlook, hanswer⟩)
      rintro ⟨place, hplace', -⟩
      cases hplace.symm.trans hplace'

/-- A path that is no name fails with its own fault, whatever the files. -/
theorem read_of_fault {fault : NameFault} (h : NameFault.of? p.text = some fault) :
    t.read p = .error (.name fault) := by
  unfold read locate
  rw [h]
  rfl

theorem read_of_place (h : t.locate p = .ok place) :
    t.read p = (t.readAt place).mapError fun fault => .file ⟨fault, p.text⟩ := by
  unfold read
  rw [h]
  rfl

/-- What is read is there. -/
theorem has_of_read (h : t.read p = .ok content) : t.Has p := by
  obtain ⟨place, hplace, h⟩ := bind_eq_ok.1 h
  refine ⟨place, hplace, ?_⟩
  have hread := mapError_eq_ok.1 h
  unfold readAt at hread
  split at hread
  · cases hread
  · rename_i entry hentry
    rw [hentry]
    rfl

/-- **A path that is a name is read, or refused by the system.** -/
theorem read_of_no_fault (h : NameFault.of? p.text = none) :
    (∃ data, t.read p = .ok data) ∨ ∃ cause, t.read p = .error (.file cause) := by
  cases hplace : t.place p with
  | error fault =>
    refine .inr ⟨⟨fault, p.text⟩, ?_⟩
    unfold read locate
    rw [h, hplace]
    rfl
  | ok place =>
    have hlocate : t.locate p = .ok place := by
      unfold locate
      rw [h, hplace]
      rfl
    rw [read_of_place hlocate]
    cases t.readAt place with
    | error fault => exact .inr ⟨_, rfl⟩
    | ok content => exact .inl ⟨content, rfl⟩

/-! ## Writing -/

/-- A place has a content, and all else is what it was before. -/
structure Sets (t : Files) (place : Place) (content : Bytes) (t' : Files) : Prop where
  content_eq : t'.content? place = some content
  frame : ∀ others, others ≠ place → t'.content? others = t.content? others
  rest_eq : { t' with files := t.files } = t

theorem content?_set_self : (t.set place content).content? place = some content := by
  have hnone : (t.files.filter (·.1 ≠ place)).find? (·.1 = place) = none :=
    List.find?_eq_none.2 fun f hf => by simpa using (List.mem_filter.1 hf).2
  rw [content?, set, List.find?_append, hnone]
  simp

theorem content?_set_of_ne {others : Place} (h : others ≠ place) :
    (t.set place content).content? others = t.content? others := by
  have hkept : (t.files.filter (·.1 ≠ place)).find? (·.1 = others) = t.files.find? (·.1 = others) := by
    rw [List.find?_filter]
    congr 1
    funext f
    by_cases hf : f.1 = others
    · simp [hf, h]
    · simp [hf]
  rw [content?, set, List.find?_append, hkept]
  simp [content?, h.symm]

theorem sets_set : t.Sets place content (t.set place content) where
  content_eq := content?_set_self
  frame _ h := content?_set_of_ne h
  rest_eq := rfl

/-- A content has not the room that it needs, and its first part is written before an error. -/
def BreaksOff (t : Files) (content : Bytes) (room : Nat) (e : Error) : Prop :=
  t.breakOff = some (room, e) ∧ room < content.length

theorem openPlace_eq_ok (h : t.openPlace p = .ok place) : t.locate p = .ok place ∧ t.checkWritable place = .ok () := by
  obtain ⟨_, hplace, h⟩ := bind_eq_ok.1 h
  obtain ⟨⟨⟩, hwritable, h⟩ := bind_eq_ok.1 h
  cases h
  exact ⟨hplace, mapError_eq_ok.1 hwritable⟩

/-- A file that cannot be opened is not written, and neither is any other. -/
theorem write_of_not_open {e : Error} (h : t.openPlace p = .error e) : t.write p content = (.error e, t) := by
  unfold write
  rw [h]

/-- **A file that is opened is written as a whole, or the write breaks off** behind a first part of it. -/
theorem write_of_open (h : t.openPlace p = .ok place) (content : Bytes) :
    t.write p content = (.ok (), t.set place content) ∨
      ∃ room e, t.BreaksOff content room e ∧ t.write p content = (.error e, t.set place (content.take room)) := by
  unfold write
  rw [h]
  dsimp only
  unfold fill
  cases hbreak : t.breakOff with
  | none => exact .inl rfl
  | some limit =>
    obtain ⟨room, e⟩ := limit
    dsimp only
    by_cases hroom : content.length ≤ room
    · rw [if_pos hroom]
      exact .inl rfl
    · rw [if_neg hroom]
      exact .inr ⟨room, e, ⟨hbreak, Nat.lt_of_not_le hroom⟩, rfl⟩

/-- A file of three bytes has lost them when a device with room for one breaks off. -/
example : ((({ ofPaths [(Path.ofText "a", [1, 2, 3])] [] with breakOff := some (1, .outOfMemory) } : Files).write
    (Path.ofText "a") [7, 8]).2.content? [⟨[]⟩, "a"]) = some [7] := by decide +kernel

end Files

end RasterSketch
