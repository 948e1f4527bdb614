import Mathlib.Data.List.Nodup
import RasterSketch.CommandLine.Run
import RasterSketch.Proofs.CommandLine.Settings
/-!
# The order of the words of a command line

A command line is made of parts: the image, and switches, each in one of its spellings, with the value in the same word
or in the next (`Spells`).  Each part is heard whatever stands before and behind it (`Part.Valid.heard`), and sets a
field of its own, so that parts of which no two are for the same switch may stand in any order (`run_eq_of_perm`).
-/
namespace RasterSketch.CommandLine

/-! ## Spellings -/

def BeginsWith (c : Char) (t : Text) : Prop := t.codes.head? = some (.char c)

/-- What a switch is called: by its letter, or by its long name or a beginning that no other long name has. -/
inductive Switch.IsCalled (s : Switch) : Text → Prop where
  | letter {c : Char} (hc : s.letter? = some c) : s.IsCalled ⟨[.char '-', .char c]⟩
  | name {t : Text} (hbegins : t.codes <+: (Text.ofString s.long).codes)
      (honly : ∀ u : Switch, t.codes <+: (Text.ofString u.long).codes → u = s) : s.IsCalled t

/-- The words that a switch and its value may be given by. -/
inductive Spells : Switch → Option Text → List Text → Prop where
  | alone {s : Switch} {t : Text} (hs : s.takesValue = false) (ht : s.IsCalled t) : Spells s none [t]
  | before {s : Switch} {t v : Text} (hs : s.takesValue = true) (ht : s.IsCalled t) : Spells s (some v) [t, v]
  | equals {s : Switch} {t v : Text} (hs : s.takesValue = true) (ht : s.IsCalled t) : Spells s (some v) [t ++ "=" ++ v]
  | attached {s : Switch} {c : Char} {v : Text} (hs : s.takesValue = true) (hc : s.letter? = some c)
      (hv : v.codes ≠ []) (hequals : ¬ BeginsWith '=' v) : Spells s (some v) [⟨.char '-' :: .char c :: v.codes⟩]

/-! ## Words told apart -/

/-- A text that is a word, and not the divider. -/
def Classifies (t : Text) (w : Word) : Prop := t ≠ "--" ∧ Word.classify t = .ok w

theorem classify_of_forall₂ : ∀ {texts : List Text} {words : List Word}, List.Forall₂ Classifies texts words →
    Words.classify texts = .ok ⟨words, none⟩
  | _, _, .nil => rfl
  | _, _, .cons ⟨hne, hword⟩ hrest => by
    rw [Words.classify, if_neg hne, hword]
    show (Words.classify _ >>= fun words => _) = _
    rw [classify_of_forall₂ hrest]
    rfl

theorem classifies_plain {t : Text} (h : ¬ BeginsWith '-' t) : Classifies t (.plain t) := by
  constructor
  · rintro rfl
    exact h rfl
  · unfold Word.classify
    split
    · rename_i ht
      exact absurd (by rw [BeginsWith, ht]; rfl) h
    · rename_i ht
      exact absurd (by rw [BeginsWith, ht]; rfl) h
    · rfl

theorem classifies_letter {s : Switch} {c : Char} (hc : s.letter? = some c) (cs : List CodePoint) :
    Classifies ⟨.char '-' :: .char c :: cs⟩ (.switch s (Word.attachedToLetter cs)) := by
  have hdash : c ≠ '-' := by
    rintro rfl
    cases s <;> simp [Switch.letter?] at hc
  refine ⟨fun h => ?_, ?_⟩
  · exact hdash (CodePoint.char.inj (List.cons.inj (List.cons.inj (congrArg Text.codes h)).2).1)
  · cases s <;> simp only [Switch.letter?, Option.some.injEq, reduceCtorEq] at hc <;> subst hc <;> rfl

/-! ### Long names -/

theorem splitValue_name : ∀ {cs : List CodePoint}, .char '=' ∉ cs → splitValue cs = (cs, none)
  | [], _ => rfl
  | c :: cs, h => by
    rw [List.mem_cons, not_or] at h
    rw [splitValue, if_neg (Ne.symm h.1), splitValue_name h.2]

theorem splitValue_equals : ∀ {cs : List CodePoint} (v : List CodePoint), .char '=' ∉ cs →
    splitValue (cs ++ .char '=' :: v) = (cs, some v)
  | [], _, _ => rfl
  | c :: cs, v, h => by
    rw [List.mem_cons, not_or] at h
    rw [List.cons_append, splitValue, if_neg (Ne.symm h.1), splitValue_equals v h.2]

namespace Switch

variable {s : Switch} {t : Text}

theorem long_codes (s : Switch) : [.char '-', .char '-'] <+: (Text.ofString s.long).codes := by
  cases s <;> exact ⟨_, rfl⟩

theorem not_mem_long (s : Switch) : CodePoint.char '=' ∉ (Text.ofString s.long).codes := by
  cases s <;> decide

/-- A beginning of one long name alone is longer than what all of them begin with. -/
theorem codes_of_begins (hbegins : t.codes <+: (Text.ofString s.long).codes)
    (honly : ∀ u : Switch, t.codes <+: (Text.ofString u.long).codes → u = s) :
    ∃ c cs, t.codes = .char '-' :: .char '-' :: c :: cs := by
  have hlong : ¬ t.codes <+: [.char '-', .char '-'] := by
    intro h
    have hhelp := honly .help (h.trans (long_codes _))
    have hstyle := honly .style (h.trans (long_codes _))
    rw [← hstyle] at hhelp
    cases hhelp
  rcases List.prefix_or_prefix_of_prefix hbegins (long_codes s) with h | ⟨rest, h⟩
  · exact absurd h hlong
  · cases rest with
    | nil => exact absurd ⟨[], by rw [← h]; rfl⟩ hlong
    | cons c cs => exact ⟨c, cs, h.symm⟩

theorem beginning_eq (hbegins : t.codes <+: (Text.ofString s.long).codes)
    (honly : ∀ u : Switch, t.codes <+: (Text.ofString u.long).codes → u = s) : beginning t = [s] := by
  have hiff : ∀ u : Switch, t.codes.isPrefixOf (Text.ofString u.long).codes = decide (u = s) := by
    intro u
    rw [Bool.eq_iff_iff, List.isPrefixOf_iff_prefix, decide_eq_true_iff]
    exact ⟨honly u, fun h => h ▸ hbegins⟩
  unfold beginning
  simp only [hiff]
  cases s <;> rfl

theorem classifyLong_eq {text : Text} {value : Option (List CodePoint)}
    (hbegins : t.codes <+: (Text.ofString s.long).codes)
    (honly : ∀ u : Switch, t.codes <+: (Text.ofString u.long).codes → u = s)
    (hsplit : splitValue text.codes = (t.codes, value)) :
    Word.classifyLong text = .ok (.switch s (value.map fun v => ⟨⟨v⟩, false⟩)) := by
  unfold Word.classifyLong
  rw [hsplit]
  dsimp only
  split
  · rename_i u hfound
    have hname := List.find?_some hfound
    rw [decide_eq_true_iff] at hname
    rw [honly u (hname ▸ List.prefix_refl _)]
  · rw [beginning_eq hbegins honly]

theorem classifies_long {text : Text} {value : Option (List CodePoint)} {c : CodePoint} {cs : List CodePoint}
    (htext : text.codes = .char '-' :: .char '-' :: c :: cs)
    (hlong : Word.classifyLong text = .ok (.switch s (value.map fun v => ⟨⟨v⟩, false⟩))) :
    Classifies text (.switch s (value.map fun v => ⟨⟨v⟩, false⟩)) := by
  constructor
  · rintro rfl
    cases htext
  · unfold Word.classify
    rw [htext]
    exact hlong

/-- What a switch is called by is read as the switch, with nothing attached or with what stands behind an equals
sign. -/
theorem IsCalled.classifies (h : s.IsCalled t) : Classifies t (.switch s none) ∧
    ∀ v : Text, ∃ toLetter, Classifies (t ++ "=" ++ v) (.switch s (some ⟨v, toLetter⟩)) := by
  cases h with
  | letter hc => exact ⟨classifies_letter hc [], fun v => ⟨true, classifies_letter hc (.char '=' :: v.codes)⟩⟩
  | name hbegins honly =>
    have hequals : CodePoint.char '=' ∉ t.codes := fun h => s.not_mem_long (hbegins.subset h)
    obtain ⟨c, cs, hcodes⟩ := codes_of_begins hbegins honly
    refine ⟨?_, fun v => ⟨false, ?_⟩⟩
    · exact classifies_long hcodes (classifyLong_eq hbegins honly (splitValue_name hequals))
    · have hcodes' : (t ++ "=" ++ v).codes = t.codes ++ .char '=' :: v.codes := by
        simp [Text.ofString, Text.ofChars]
      have hsplit : splitValue (t ++ "=" ++ v).codes = (t.codes, some v.codes) := by
        rw [hcodes', splitValue_equals _ hequals]
      have htext : (t ++ "=" ++ v).codes = .char '-' :: .char '-' :: c :: (cs ++ .char '=' :: v.codes) := by
        rw [hcodes', hcodes]
        rfl
      exact classifies_long htext (classifyLong_eq hbegins honly hsplit)

end Switch

/-! ## Spellings read -/

theorem applyAll_singleton (st : Settings) (x : Setting) : st.applyAll [x] = st.apply x := by
  rw [Settings.applyAll]
  cases st.apply x <;> rfl

theorem clusterOf_of_takesValue {s : Switch} (hs : s.takesValue = true) (v : Text) (toLetter : Bool) :
    clusterOf s (some ⟨v, toLetter⟩) = .ok ⟨[], s, some v⟩ := by
  show cluster s toLetter v.codes = _
  obtain ⟨cs⟩ := v
  cases cs with
  | nil =>
    rw [cluster, if_pos hs]
    rfl
  | cons c cs =>
    rw [cluster.eq_def]
    dsimp only
    rw [if_pos hs]

theorem valueText_of_not_begins {v : Text} (h : ¬ BeginsWith '-' v) : valueText v = some v := by
  unfold valueText
  rw [if_neg]
  rintro rfl
  exact h rfl

theorem attachedToLetter_eq {v : Text} (hne : v.codes ≠ []) (hequals : ¬ BeginsWith '=' v) :
    Word.attachedToLetter v.codes = some ⟨v, true⟩ := by
  unfold Word.attachedToLetter
  split
  · rename_i h
    exact absurd h hne
  · rename_i h
    exact absurd (by rw [BeginsWith, h]; rfl) hequals
  · rfl

/-- **A switch is heard in each of its spellings**, and nothing behind it is touched. -/
theorem Spells.heard {s : Switch} {value : Option Text} {texts : List Text} (h : Spells s value texts)
    (hv : ∀ v, value = some v → ¬ BeginsWith '-' v) : ∃ words, List.Forall₂ Classifies texts words ∧
      ∀ (st : Settings) (afterImage : Bool) (rest : List Word), readWords st afterImage none (words ++ rest) =
        st.apply ⟨s, value⟩ >>= fun next => readWords next false none rest := by
  cases h with
  | alone hs ht =>
    refine ⟨[.switch s none], .cons ht.classifies.1 .nil, fun st afterImage rest => ?_⟩
    simp [readWords, clusterOf, Cluster.wantsValue, Cluster.settings, hs, applyAll_singleton]
  | @before t v hs ht =>
    refine ⟨[.switch s none, .plain v], .cons ht.classifies.1 (.cons (classifies_plain (hv v rfl)) .nil),
      fun st afterImage rest => ?_⟩
    simp [readWords, clusterOf, Cluster.wantsValue, Cluster.settings, hs, applyAll_singleton]
  | @equals t v hs ht =>
    obtain ⟨toLetter, hword⟩ := ht.classifies.2 v
    refine ⟨[.switch s (some ⟨v, toLetter⟩)], .cons hword .nil, fun st afterImage rest => ?_⟩
    simp [readWords, clusterOf_of_takesValue hs, Cluster.wantsValue, Cluster.settings, applyAll_singleton,
      valueText_of_not_begins (hv v rfl)]
  | @attached c v hs hc hne hequals =>
    refine ⟨[.switch s (some ⟨v, true⟩)], .cons ?_ .nil, fun st afterImage rest => ?_⟩
    · rw [← attachedToLetter_eq hne hequals]
      exact classifies_letter hc v.codes
    · simp [readWords, clusterOf_of_takesValue hs, Cluster.wantsValue, Cluster.settings, applyAll_singleton,
        valueText_of_not_begins (hv v rfl)]

/-! ## Parts -/

/-- A part of a command line: the image, or a switch with its value and the words that it is given by. -/
inductive Part where
  | image (text : Text)
  | switch (s : Switch) (value : Option Text) (texts : List Text)

/-- The values that a switch takes, and none for a flag. -/
def Switch.Accepts : Switch → Option Text → Prop
  | .style, some v => (Style.ofName? v).isSome = true
  | .maxSize, some v => (Text.integer? v).isSome = true
  | .output, some _ => True
  | .legacy, none => True
  | .verbose, none => True
  | _, _ => False

/-- The settings with what a switch sets. -/
def Settings.taking (st : Settings) : Switch → Option Text → Settings
  | .style, value => { st with style := styleOf value }
  | .legacy, _ => { st with legacy := true }
  | .maxSize, value => { st with bound := boundOf value }
  | .output, value => { st with output := value }
  | .verbose, _ => { st with verbose := true }
  | .help, _ => st

theorem Settings.apply_eq_taking (st : Settings) {s : Switch} {value : Option Text} (h : s.Accepts value) :
    st.apply ⟨s, value⟩ = .ok (st.taking s value) := by
  cases s <;> cases value <;> try exact h.elim
  · exact if_pos h
  · rfl
  · rename_i v
    obtain ⟨n, hn⟩ := Option.isSome_iff_exists.1 h
    have hbound : boundOf (some v) = some n := hn
    rw [taking, hbound, apply, setBound, hn]
  · rfl
  · rfl

namespace Part

def words : Part → List Text
  | image text => [text]
  | switch _ _ texts => texts

/-- The switch that a part is for, if it is not the image. -/
def switch? : Part → Option Switch
  | image _ => none
  | switch s _ _ => some s

/-- An image that does not begin with a dash, or a spelling of a switch that is no call for help, with a value that it
takes and that does not begin with a dash. -/
def Valid : Part → Prop
  | image text => ¬ BeginsWith '-' text
  | switch s value texts => Spells s value texts ∧ s.Accepts value ∧ ∀ v, value = some v → ¬ BeginsWith '-' v

/-- The settings with what a part says. -/
def act (st : Settings) : Part → Settings
  | image text => { st with image := some text }
  | switch s value _ => st.taking s value

/-- A request that has what a part says. -/
def IsMet (q : Request) : Part → Prop
  | image text => q.image = text
  | switch .style value _ => q.style = styleOf value
  | switch .legacy _ _ => q.legacy = true
  | switch .maxSize value _ => q.bound = boundOf value
  | switch .output value _ => q.output = value
  | switch .verbose _ _ => q.verbose = true
  | switch .help _ _ => False

theorem act_comm {p p' : Part} (h : p.switch? ≠ p'.switch?) (st : Settings) :
    act (act st p) p' = act (act st p') p := by
  cases p with
  | image text =>
    cases p' with
    | image text' => exact absurd rfl h
    | switch s value texts => cases s <;> rfl
  | switch s value texts =>
    cases p' with
    | image text => cases s <;> rfl
    | switch s' value' texts' => cases s <;> cases s' <;> first | rfl | exact absurd rfl h

theorem image_act {p : Part} (h : p.switch? ≠ none) (st : Settings) : (act st p).image = st.image := by
  cases p with
  | image text => exact absurd rfl h
  | switch s value texts => cases s <;> rfl

theorem extras_act (st : Settings) (p : Part) : (act st p).extras = st.extras := by
  cases p with
  | image text => rfl
  | switch s value texts => cases s <;> rfl

/-- **A part is heard whatever stands around it**, the image unless there was one before. -/
theorem Valid.heard {p : Part} (hp : p.Valid) : ∃ words, List.Forall₂ Classifies p.words words ∧
    ∀ (st : Settings) (afterImage : Bool), (p.switch? = none → st.image = none) →
      ∃ afterPart, ∀ rest, readWords st afterImage none (words ++ rest) = readWords (act st p) afterPart none rest := by
  cases p with
  | image text =>
    refine ⟨[.plain text], .cons (classifies_plain hp) .nil, fun st afterImage himage => ⟨true, fun rest => ?_⟩⟩
    rw [List.singleton_append, readWords, himage rfl]
    rfl
  | switch s value texts =>
    obtain ⟨hspells, haccepts, hdash⟩ := hp
    obtain ⟨words, hwords, hheard⟩ := hspells.heard hdash
    refine ⟨words, hwords, fun st afterImage _ => ⟨false, fun rest => ?_⟩⟩
    rw [hheard, st.apply_eq_taking haccepts]
    rfl

end Part

/-! ## Parts one after the other -/

variable {parts parts' : List Part}

/-- The words of parts are read part by part. -/
theorem readWords_parts (hvalid : ∀ p ∈ parts, p.Valid) (honce : (parts.map Part.switch?).Nodup) :
    ∀ (st : Settings) (afterImage : Bool), (none ∈ parts.map Part.switch? → st.image = none) →
      ∃ words, List.Forall₂ Classifies (parts.flatMap Part.words) words ∧
        readWords st afterImage none words = .ok (parts.foldl Part.act st) := by
  induction parts with
  | nil => exact fun st afterImage _ => ⟨[], .nil, rfl⟩
  | cons p parts ih =>
    intro st afterImage himage
    rw [List.map_cons, List.nodup_cons] at honce
    rw [List.map_cons, List.mem_cons] at himage
    obtain ⟨words, hwords, hheard⟩ := (hvalid p List.mem_cons_self).heard
    obtain ⟨afterPart, hread⟩ := hheard st afterImage fun h => himage (.inl h.symm)
    -- an image that is still to come has not come before
    have hlater : none ∈ parts.map Part.switch? → (Part.act st p).image = none := by
      intro hmem
      have hp : p.switch? ≠ none := fun h => honce.1 (h ▸ hmem)
      rw [Part.image_act hp]
      exact himage (.inr hmem)
    obtain ⟨later, hlaterWords, hrest⟩ :=
      ih (fun q hq => hvalid q (List.mem_cons_of_mem p hq)) honce.2 _ afterPart hlater
    exact ⟨words ++ later, List.rel_append hwords hlaterWords, by rw [hread, hrest]; rfl⟩

/-- Parts for different switches act in any order. -/
theorem foldl_act_eq_of_perm (honce : (parts.map Part.switch?).Nodup) (hperm : parts.Perm parts') (st : Settings) :
    parts.foldl Part.act st = parts'.foldl Part.act st := by
  refine hperm.foldl_eq' (fun p hp p' hp' st => ?_) st
  by_cases h : p.switch? = p'.switch?
  · rw [List.inj_on_of_nodup_map honce hp hp' h]
  · exact Part.act_comm h st

/-- Each part may be taken for the last one. -/
theorem exists_act (honce : (parts.map Part.switch?).Nodup) {p : Part} (hp : p ∈ parts) (st : Settings) :
    ∃ before, parts.foldl Part.act st = Part.act before p := by
  obtain ⟨before, after, rfl⟩ := List.append_of_mem hp
  have hlast : (before ++ p :: after).Perm (before ++ after ++ [p]) :=
    List.perm_middle.trans (List.perm_append_singleton p _).symm
  refine ⟨(before ++ after).foldl Part.act st, ?_⟩
  rw [foldl_act_eq_of_perm honce hlast, List.foldl_append]
  rfl

theorem extras_foldl_act (st : Settings) : (parts.foldl Part.act st).extras = st.extras := by
  induction parts generalizing st with
  | nil => rfl
  | cons p parts ih => rw [List.foldl_cons, ih, Part.extras_act]

/-- **The request of parts has what each of them says.** -/
theorem ofWords_parts (hvalid : ∀ p ∈ parts, p.Valid) (honce : (parts.map Part.switch?).Nodup)
    (himage : none ∈ parts.map Part.switch?) :
    ∃ q : Request, Request.ofWords (parts.flatMap Part.words) = .ok q ∧ (∀ p ∈ parts, p.IsMet q) ∧
      (parts.foldl Part.act {}).request = .ok q := by
  obtain ⟨words, hwords, hread⟩ := readWords_parts hvalid honce {} false fun _ => rfl
  have hrequest : Request.ofWords (parts.flatMap Part.words) = (parts.foldl Part.act {}).request := by
    unfold Request.ofWords
    rw [classify_of_forall₂ hwords]
    dsimp only
    rw [hread]
    rfl
  obtain ⟨p, hp, hnone⟩ := List.mem_map.1 himage
  obtain ⟨text, rfl⟩ : ∃ text, p = .image text := by
    cases p with
    | image text => exact ⟨text, rfl⟩
    | switch s value texts => cases hnone
  have hset : (parts.foldl Part.act {}).image = some text := by
    obtain ⟨before, hbefore⟩ := exists_act honce hp {}
    rw [hbefore]
    rfl
  have hextras : (parts.foldl Part.act {}).extras = [] := extras_foldl_act {}
  have hok : (parts.foldl Part.act {}).request = .ok { parts.foldl Part.act {} with image := text } := by
    unfold Settings.request
    rw [hset, hextras]
  refine ⟨_, hrequest.trans hok, fun p hp => ?_, hok⟩
  obtain ⟨before, hbefore⟩ := exists_act honce hp {}
  cases p with
  | image text' =>
    rw [hbefore] at hset
    exact (Option.some.inj hset).symm
  | switch s value texts =>
    have hhelp := (hvalid _ hp).2.1
    cases s with
    | help => cases value <;> exact hhelp.elim
    | _ => simp only [Part.IsMet]; rw [hbefore]; rfl

/-- **The parts of a command line may stand in any order**: what a run comes to is the same, whatever it runs on, and it
is a run with the request that has what each part says. -/
theorem run_eq_of_perm {m : Type → Type} [Monad m] (sys : System m) (r : Rasteriser) (imaging : Imaging)
    (hvalid : ∀ p ∈ parts, p.Valid) (honce : (parts.map Part.switch?).Nodup) (himage : none ∈ parts.map Part.switch?)
    (hperm : parts.Perm parts') :
    run sys r imaging (parts.flatMap Part.words) = run sys r imaging (parts'.flatMap Part.words) ∧
      ∃ q, (∀ p ∈ parts, p.IsMet q) ∧
        run sys r imaging (parts.flatMap Part.words) = runRequest sys r imaging q := by
  obtain ⟨q, hwords, hmet, hq⟩ := ofWords_parts hvalid honce himage
  have hvalid' : ∀ p ∈ parts', p.Valid := fun p hp => hvalid p (hperm.mem_iff.2 hp)
  obtain ⟨q', hwords', -, hq'⟩ :=
    ofWords_parts hvalid' ((hperm.map _).nodup_iff.1 honce) ((hperm.map _).mem_iff.1 himage)
  rw [foldl_act_eq_of_perm honce hperm, hq'] at hq
  cases hq
  have hrun : ∀ {texts}, Request.ofWords texts = .ok q →
      run sys r imaging texts = runRequest sys r imaging q := by
    intro texts h
    unfold run
    rw [h]
  exact ⟨(hrun hwords).trans (hrun hwords').symm, q, hmet, hrun hwords⟩

/-- Every switch, and every kind of spelling. -/
def dottedParts : List Part :=
  [.switch .maxSize (some "7") ["-m7"], .switch .legacy none ["--leg"], .image "a.ppm",
    .switch .style (some "dots") ["--style", "dots"], .switch .output (some "m.js") ["--o=m.js"],
    .switch .verbose none ["-v"]]

theorem dottedParts_valid : ∀ p ∈ dottedParts, p.Valid := by
  have hdash : ∀ (v w : Text), w.codes.head? ≠ some (.char '-') → some w = some v → ¬ BeginsWith '-' v := by
    rintro v w hw ⟨⟩
    exact hw
  simp only [dottedParts, List.forall_mem_cons, List.not_mem_nil, false_imp_iff, implies_true, and_true]
  refine ⟨⟨.attached rfl rfl (by decide) (by unfold BeginsWith; decide), by unfold Switch.Accepts; decide +kernel,
      fun v => hdash v "7" (by decide)⟩,
    ⟨.alone rfl (.name (by decide) fun u => by cases u <;> decide), trivial, fun v h => by cases h⟩,
    by unfold Part.Valid BeginsWith; decide,
    ⟨.before rfl (.name (by decide) fun u => by cases u <;> decide), by unfold Switch.Accepts; decide +kernel,
      fun v => hdash v "dots" (by decide)⟩,
    ⟨.equals (t := "--o") rfl (.name (by decide) fun u => by cases u <;> decide), trivial,
      fun v => hdash v "m.js" (by decide)⟩,
    ⟨.alone rfl (.letter rfl), trivial, fun v h => by cases h⟩⟩

theorem dottedParts_reversed : (∀ p ∈ dottedParts, p.Valid) ∧ (dottedParts.map Part.switch?).Nodup ∧
    none ∈ dottedParts.map Part.switch? ∧ dottedParts.Perm dottedParts.reverse ∧
    run treeSystem .missing (.bundled 100) (dottedParts.flatMap Part.words) =
      run treeSystem .missing (.bundled 100) (dottedParts.reverse.flatMap Part.words) := by
  have honce : (dottedParts.map Part.switch?).Nodup := by decide
  have himage : none ∈ dottedParts.map Part.switch? := by decide
  have hperm : dottedParts.Perm dottedParts.reverse := (List.reverse_perm _).symm
  exact ⟨dottedParts_valid, honce, himage, hperm,
    (run_eq_of_perm treeSystem .missing (.bundled 100) dottedParts_valid honce himage hperm).1⟩

end RasterSketch.CommandLine
