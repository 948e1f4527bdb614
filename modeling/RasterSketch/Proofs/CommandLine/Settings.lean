import RasterSketch.CommandLine.Request
import RasterSketch.Proofs.Delivery
/-!
# What the words of a command line set

A request has the values that its switches were given last, and without any the values that they have from the start;
its image is the only word that is neither a switch nor a value (`Request.follows`).  The words that are read are told
apart first (`reading`), whatever they set, so that what is set is said without the order in which it comes about.

No word sets a style that there is not: what no step changes (`Settings.Keeps`) holds of what is set in the end
(`Request.isStyle`).
-/
namespace RasterSketch.CommandLine

/-- What words amount to: the settings of their switches, in order, and the words that are plain. -/
structure Reading where
  given : List Setting
  plain : List Text

namespace Reading

def none : Reading := ⟨[], []⟩

def withPlain (text : Text) (r : Reading) : Reading := ⟨r.given, text :: r.plain⟩

def withGiven (xs : List Setting) (r : Reading) : Reading := ⟨xs ++ r.given, r.plain⟩

end Reading

/-- What words amount to, up to one that cannot be read. -/
def reading : List Word → Reading
  | [] => .none
  | .plain text :: words => (reading words).withPlain text
  | .unknown _ :: words => reading words
  | .switch s attached :: words =>
    match clusterOf s attached with
    | .error _ => .none
    | .ok c =>
      if c.wantsValue then
        match words with
        | .plain text :: words => (reading words).withGiven (c.settings (some text))
        | _ => .none
      else (reading words).withGiven (c.settings (c.value.bind valueText))

/-! ## Settings one after the other -/

def latest (s : Switch) : List Setting → Option (Option Text)
  | [] => none
  | x :: xs => (latest s xs).or (if x.switch = s then some x.value else none)

theorem latest_append (s : Switch) (xs ys : List Setting) : latest s (xs ++ ys) = (latest s ys).or (latest s xs) := by
  induction xs with
  | nil => exact Option.or_none.symm
  | cons x xs ih => rw [List.cons_append, latest, latest, ih, Option.or_assoc]

/-- The style that a value chooses; where there is none, a list of none. -/
def styleOf : Option Text → Value
  | none => .list []
  | some text => .bare text

def boundOf (value : Option Text) : Option Int := value.bind Text.integer?

/-- Settings that come from others by what was given. -/
structure Settings.Chosen (st st' : Settings) (given : List Setting) : Prop where
  style_eq : st'.style = (latest .style given).elim st.style styleOf
  legacy_eq : st'.legacy = (st.legacy || given.any (·.switch = .legacy))
  bound_eq : st'.bound = (latest .maxSize given).elim st.bound boundOf
  output_eq : st'.output = (latest .output given).getD st.output
  verbose_eq : st'.verbose = (st.verbose || given.any (·.switch = .verbose))

namespace Settings

variable {st st' st'' : Settings} {xs ys : List Setting}

theorem Chosen.refl (st : Settings) : st.Chosen st [] :=
  ⟨rfl, (Bool.or_false _).symm, rfl, rfl, (Bool.or_false _).symm⟩

theorem Chosen.refuse (st : Settings) (texts : List Text) : st.Chosen (st.refuse texts) [] :=
  ⟨rfl, (Bool.or_false _).symm, rfl, rfl, (Bool.or_false _).symm⟩

theorem Chosen.withImage (st : Settings) (text : Text) : st.Chosen { st with image := some text } [] :=
  ⟨rfl, (Bool.or_false _).symm, rfl, rfl, (Bool.or_false _).symm⟩

theorem elim_or {α β : Type} (x y : Option α) (b : β) (f : α → β) : (x.or y).elim b f = x.elim (y.elim b f) f := by
  cases x <;> rfl

theorem Chosen.trans (h : st.Chosen st' xs) (h' : st'.Chosen st'' ys) : st.Chosen st'' (xs ++ ys) where
  style_eq := by rw [h'.style_eq, h.style_eq, latest_append, elim_or]
  legacy_eq := by rw [h'.legacy_eq, h.legacy_eq, List.any_append, Bool.or_assoc]
  bound_eq := by rw [h'.bound_eq, h.bound_eq, latest_append, elim_or]
  output_eq := by rw [h'.output_eq, h.output_eq, latest_append, Option.getD_or]
  verbose_eq := by rw [h'.verbose_eq, h.verbose_eq, List.any_append, Bool.or_assoc]

/-- **A setting that is accepted sets its own field**, and no word is taken up on the way. -/
theorem chosen_of_apply {x : Setting} (h : st.apply x = .ok st') :
    st.Chosen st' [x] ∧ st'.image = st.image ∧ st'.extras = st.extras := by
  obtain ⟨s, value⟩ := x
  cases s with
  | help => cases h
  | style =>
    cases value with
    | none => cases h; exact ⟨⟨rfl, by simp, rfl, rfl, by simp⟩, rfl, rfl⟩
    | some text =>
      simp only [apply, setStyle] at h
      split at h
      · cases h
        exact ⟨⟨rfl, by simp, rfl, rfl, by simp⟩, rfl, rfl⟩
      · cases h
  | legacy => cases h; exact ⟨⟨rfl, by simp, rfl, rfl, by simp⟩, rfl, rfl⟩
  | maxSize =>
    cases value with
    | none => cases h; exact ⟨⟨rfl, by simp, rfl, rfl, by simp⟩, rfl, rfl⟩
    | some text =>
      simp only [apply, setBound] at h
      split at h
      · rename_i n hn
        cases h
        exact ⟨⟨rfl, by simp, hn.symm, rfl, by simp⟩, rfl, rfl⟩
      · cases h
  | output => cases h; exact ⟨⟨rfl, by simp, rfl, rfl, by simp⟩, rfl, rfl⟩
  | verbose => cases h; exact ⟨⟨rfl, by simp, rfl, rfl, by simp⟩, rfl, rfl⟩

theorem chosen_of_applyAll : ∀ {xs : List Setting} {st : Settings}, st.applyAll xs = .ok st' →
    st.Chosen st' xs ∧ st'.image = st.image ∧ st'.extras = st.extras
  | [], _, h => by
    cases h
    exact ⟨.refl _, rfl, rfl⟩
  | x :: xs, st, h => by
    obtain ⟨next, hx, hxs⟩ := bind_eq_ok.1 h
    obtain ⟨hfirst, himage, hextras⟩ := chosen_of_apply hx
    obtain ⟨hrest, himage', hextras'⟩ := chosen_of_applyAll hxs
    exact ⟨hfirst.trans hrest, himage'.trans himage, hextras'.trans hextras⟩

end Settings

/-! ## Words one after the other -/

/-- Where reading leads: to what was given, and, unless a word is left over, to an image that is the only plain word. -/
structure Settings.Reads (st st' : Settings) (r : Reading) (behind : Option (List Text)) : Prop where
  chosen : st.Chosen st' r.given
  image_eq : st'.extras = [] → st.extras = [] ∧ st'.image.toList = st.image.toList ++ r.plain ++ behind.getD []

namespace Settings.Reads

variable {st st' next : Settings} {r : Reading} {behind : Option (List Text)}

/-- A word that is refused is never forgotten. -/
theorem of_refuse {text : Text} {r' : Reading} (h : (st.refuse [text]).Reads st' r behind)
    (hgiven : r'.given = r.given) : st.Reads st' r' behind :=
  ⟨hgiven ▸ (Chosen.refuse st [text]).trans h.chosen, fun hextras => by
    have hrefused := (h.image_eq hextras).1
    simp [refuse] at hrefused⟩

theorem of_given {xs : List Setting} (hxs : st.applyAll xs = .ok next) (h : next.Reads st' r behind) :
    st.Reads st' (r.withGiven xs) behind := by
  obtain ⟨hchosen, himage, hextras⟩ := chosen_of_applyAll hxs
  refine ⟨hchosen.trans h.chosen, fun hleft => ?_⟩
  obtain ⟨hnone, hplain⟩ := h.image_eq hleft
  exact ⟨hextras ▸ hnone, himage ▸ hplain⟩

theorem of_behind (st : Settings) (afterImage : Bool) (texts : List Text) :
    st.Reads (readBehind st afterImage texts) .none (some texts) := by
  unfold readBehind
  cases himage : st.image with
  | none =>
    cases texts with
    | nil => exact ⟨.refuse st ["--"], fun h => absurd h (by simp [refuse])⟩
    | cons text texts =>
      refine ⟨(Chosen.withImage st text).trans (.refuse _ texts), fun h => ?_⟩
      obtain ⟨hextras, rfl⟩ := List.append_eq_nil_iff.1 h
      exact ⟨hextras, by simp [refuse, himage, Reading.none]⟩
  | some image =>
    refine ⟨.refuse st _, fun h => ?_⟩
    obtain ⟨hextras, hrest⟩ := List.append_eq_nil_iff.1 h
    cases afterImage with
    | false => cases hrest
    | true =>
      obtain rfl : texts = [] := hrest
      exact ⟨hextras, by simp [refuse, himage, Reading.none]⟩

end Settings.Reads

open Settings (Reads)

/-- A switch acts, with the next word where it wants one, and the words behind it are read after that. -/
theorem readWords_switch {st st' : Settings} {afterImage : Bool} {behind : Option (List Text)} {s : Switch}
    {attached : Option Attached} {words : List Word}
    (h : readWords st afterImage behind (.switch s attached :: words) = .ok st') :
    ∃ xs next rest, st.applyAll xs = .ok next ∧ readWords next false behind rest = .ok st' ∧
      reading (.switch s attached :: words) = (reading rest).withGiven xs ∧ rest.length ≤ words.length := by
  rw [readWords] at h
  rw [reading]
  cases hcluster : clusterOf s attached with
  | error e =>
    rw [hcluster] at h
    cases h
  | ok c =>
    rw [hcluster] at h
    dsimp only at h ⊢
    cases hwants : c.wantsValue with
    | true =>
      rw [hwants, if_pos rfl] at h
      rw [if_pos rfl]
      -- the next word is the value, or the reading ends
      match words, h with
      | .plain text :: words, h =>
        obtain ⟨next, hnext, hrest⟩ := bind_eq_ok.1 h
        exact ⟨_, next, words, hnext, hrest, rfl, Nat.le_succ _⟩
    | false =>
      rw [hwants] at h
      obtain ⟨next, hnext, hrest⟩ := bind_eq_ok.1 h
      exact ⟨_, next, words, hnext, hrest, rfl, Nat.le_refl _⟩

theorem reads_of_readWords : ∀ {words : List Word} {st st' : Settings} {afterImage : Bool}
    {behind : Option (List Text)}, readWords st afterImage behind words = .ok st' → st.Reads st' (reading words) behind
  | [], st, st', afterImage, behind, h => by
    cases behind with
    | none =>
      cases h
      exact ⟨.refl _, fun h => ⟨h, by simp [reading, Reading.none]⟩⟩
    | some texts =>
      cases h
      exact .of_behind st afterImage texts
  | .plain text :: words, st, st', afterImage, behind, h => by
    rw [readWords] at h
    cases himage : st.image with
    | none =>
      rw [himage] at h
      have hrest := reads_of_readWords h
      refine ⟨(Settings.Chosen.withImage st text).trans hrest.chosen, fun hleft => ?_⟩
      obtain ⟨hextras, hplain⟩ := hrest.image_eq hleft
      exact ⟨hextras, by simpa [reading, Reading.withPlain, himage] using hplain⟩
    | some image =>
      -- a second plain word is refused
      rw [himage] at h
      exact (reads_of_readWords h).of_refuse rfl
  | .unknown text :: words, st, st', afterImage, behind, h => by
    rw [readWords] at h
    exact (reads_of_readWords h).of_refuse rfl
  | .switch s attached :: words, st, st', afterImage, behind, h => by
    obtain ⟨xs, next, rest, hnext, hrest, hreading, hlength⟩ := readWords_switch h
    rw [hreading]
    exact .of_given hnext (reads_of_readWords hrest)
  termination_by words => words.length
  decreasing_by all_goals simp only [List.length_cons]; omega

/-! ## What no word changes -/

/-- What no step of reading words changes. -/
structure Settings.Keeps (P : Settings → Prop) : Prop where
  image : ∀ {st : Settings} (text : Text), P st → P { st with image := some text }
  refuse : ∀ {st : Settings} (texts : List Text), P st → P (st.refuse texts)
  apply : ∀ {st st' : Settings} {x : Setting}, P st → st.apply x = .ok st' → P st'

namespace Settings.Keeps

variable {P : Settings → Prop} (hP : Keeps P)

include hP

theorem applyAll : ∀ {xs : List Setting} {st st' : Settings}, P st → st.applyAll xs = .ok st' → P st'
  | [], _, _, hst, h => by
    cases h
    exact hst
  | x :: xs, st, st', hst, h => by
    obtain ⟨next, hx, hxs⟩ := bind_eq_ok.1 h
    exact applyAll (hP.apply hst hx) hxs

theorem readBehind {st : Settings} (afterImage : Bool) (texts : List Text) (hst : P st) :
    P (readBehind st afterImage texts) := by
  unfold CommandLine.readBehind
  split
  · exact hP.refuse _ hst
  · exact hP.refuse _ (hP.image _ hst)
  · exact hP.refuse _ hst

/-- **What no step changes, reading all words does not.** -/
theorem readWords : ∀ {words : List Word} {st st' : Settings} {afterImage : Bool} {behind : Option (List Text)}, P st →
    readWords st afterImage behind words = .ok st' → P st'
  | [], st, st', afterImage, behind, hst, h => by
    cases behind with
    | none => cases h; exact hst
    | some texts => cases h; exact hP.readBehind _ _ hst
  | .plain text :: words, st, st', afterImage, behind, hst, h => by
    rw [CommandLine.readWords] at h
    cases himage : st.image with
    | none =>
      rw [himage] at h
      exact readWords (hP.image text hst) h
    | some image =>
      rw [himage] at h
      exact readWords (hP.refuse [text] hst) h
  | .unknown text :: words, st, st', afterImage, behind, hst, h => by
    rw [CommandLine.readWords] at h
    exact readWords (hP.refuse [text] hst) h
  | .switch s attached :: words, st, st', afterImage, behind, hst, h => by
    obtain ⟨xs, next, rest, hnext, hrest, -, hlength⟩ := readWords_switch h
    exact readWords (hP.applyAll hst hnext) hrest
  termination_by words => words.length
  decreasing_by all_goals simp only [List.length_cons]; omega

end Settings.Keeps

/-- A style is one of those that there are, or none. -/
def IsStyle (v : Value) : Prop := v = .list [] ∨ ∃ style, Style.ofValue v = .ok style

theorem Settings.isStyle_of_apply {st st' : Settings} {x : Setting} (hst : IsStyle st.style)
    (h : st.apply x = .ok st') : IsStyle st'.style := by
  obtain ⟨s, value⟩ := x
  cases s with
  | help => cases h
  | style =>
    cases value with
    | none => cases h; exact .inl rfl
    | some text =>
      unfold apply setStyle at h
      dsimp only at h
      split at h
      · rename_i hknown
        cases h
        obtain ⟨style, hstyle⟩ := Option.isSome_iff_exists.1 hknown
        refine .inr ⟨style, ?_⟩
        unfold Style.ofValue Style.ofValue?
        dsimp only
        rw [hstyle]
      · cases h
  | maxSize =>
    cases value with
    | none => cases h; exact hst
    | some text =>
      unfold apply setBound at h
      dsimp only at h
      split at h
      · cases h; exact hst
      · cases h
  | _ => cases h; exact hst

/-! ## Requests -/

/-- A request has what its words set: the latest values, and their only plain word for its image. -/
structure Request.Follows (q : Request) (words : Words) : Prop where
  image_eq : (reading words.before).plain ++ words.behind.getD [] = [q.image]
  style_eq : q.style = (latest .style (reading words.before).given).elim (.bare Style.pixels.name) styleOf
  legacy_eq : q.legacy = (reading words.before).given.any (·.switch = .legacy)
  bound_eq : q.bound = (latest .maxSize (reading words.before).given).elim (some targetMax) boundOf
  output_eq : q.output = (latest .output (reading words.before).given).getD none
  verbose_eq : q.verbose = (reading words.before).given.any (·.switch = .verbose)

/-- **A request follows its words.** -/
theorem Request.follows {texts : List Text} {q : Request} (h : ofWords texts = .ok q) :
    ∃ words, Words.classify texts = .ok words ∧ q.Follows words := by
  unfold ofWords at h
  split at h
  · cases h
  rename_i words hwords
  obtain ⟨st, hst, h⟩ := bind_eq_ok.1 h
  have hreads := reads_of_readWords hst
  unfold Settings.request at h
  split at h
  · cases h
  · cases h
  rename_i image himage hextras
  cases h
  have hplain := (hreads.image_eq hextras).2
  rw [himage] at hplain
  exact ⟨words, hwords, hplain.symm, hreads.chosen.style_eq, hreads.chosen.legacy_eq, hreads.chosen.bound_eq,
    hreads.chosen.output_eq, hreads.chosen.verbose_eq⟩

theorem Request.isStyle {texts : List Text} {q : Request} (h : ofWords texts = .ok q) : IsStyle q.style := by
  unfold ofWords at h
  split at h
  · cases h
  obtain ⟨st, hst, h⟩ := bind_eq_ok.1 h
  have hstart : IsStyle (Settings.style {}) := .inr ⟨.pixels, rfl⟩
  have hkeeps : Settings.Keeps fun st => IsStyle st.style := ⟨fun _ h => h, fun _ h => h, Settings.isStyle_of_apply⟩
  have hstyle := hkeeps.readWords hstart hst
  unfold Settings.request at h
  split at h
  · cases h
  · cases h
  · cases h
    exact hstyle

end RasterSketch.CommandLine
