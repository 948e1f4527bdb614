import Mathlib.Data.List.Infix
import RasterSketch.Raster.Svg
/-!
# Vector graphics by their start

Nothing behind the first 4096 bytes has a say in whether data is taken for vector graphics (`looksLikeSvg_take`), and
what is taken for them stays so with more data behind (`looksLikeSvg_of_isBeginning`).  Blanks in front make no
difference as long as all of the data is within the window in which blanks are left out: no mark begins with a blank, so
none begins among them (`looksLikeSvg_stable`).
-/
namespace RasterSketch

/-- A search finds what stands somewhere in a row. -/
theorem occurs_eq_true {part : List UInt8} : ∀ {bytes : List UInt8}, occurs part bytes = true ↔ part <:+: bytes
  | [] => by rw [occurs, List.isEmpty_iff, List.infix_nil]
  | b :: bytes => by
    rw [occurs, Bool.or_eq_true, List.isPrefixOf_iff_prefix, occurs_eq_true, List.infix_cons_iff]

theorem infix_append_of_not_mem {b : UInt8} {part bytes : List UInt8} : ∀ {front : List UInt8}, b ∉ front →
    (b :: part <:+: front ++ bytes ↔ b :: part <:+: bytes)
  | [], _ => Iff.rfl
  | c :: front, h => by
    rw [List.mem_cons, not_or] at h
    rw [List.cons_append, List.infix_cons_iff, infix_append_of_not_mem h.2, List.cons_prefix_cons]
    exact or_iff_right fun hc => h.1 hc.1

/-- Of a first part the blanks are left out as they are of the whole. -/
theorem dropWhile_of_isBeginning {α : Type} {p : α → Bool} {xs ys : List α} (h : xs <+: ys) :
    xs.dropWhile p <+: ys.dropWhile p := by
  obtain ⟨rest, rfl⟩ := h
  rw [List.dropWhile_append]
  split
  · rename_i hall
    rw [List.isEmpty_iff.1 hall]
    exact List.nil_prefix
  · exact List.prefix_append _ _

namespace Svg

theorem looksLikeSvg_eq_true {data : List UInt8} : looksLikeSvg data = true ↔
    openTag <+: head data ∨ declaration <+: head data ∧ openTag <:+: data.take 4096 := by
  rw [looksLikeSvg, Bool.or_eq_true, Bool.and_eq_true, List.isPrefixOf_iff_prefix, List.isPrefixOf_iff_prefix,
    occurs_eq_true]

/-! ## More data behind -/

theorem looksLikeSvg_of_isBeginning {first data : List UInt8} (h : first <+: data) (hsvg : looksLikeSvg first = true) :
    looksLikeSvg data = true := by
  have hhead : head first <+: head data := dropWhile_of_isBeginning (h.take 1024)
  rw [looksLikeSvg_eq_true] at hsvg ⊢
  rcases hsvg with htag | ⟨hdeclared, htag⟩
  · exact .inl (htag.trans hhead)
  · exact .inr ⟨hdeclared.trans hhead, htag.trans (h.take 4096).isInfix⟩

/-- **Data is judged by its first 4096 bytes.** -/
theorem looksLikeSvg_take (data : List UInt8) : looksLikeSvg (data.take 4096) = looksLikeSvg data := by
  unfold looksLikeSvg head
  rw [List.take_take, List.take_take, Nat.min_eq_left (by decide), Nat.min_self]

/-! ## Blanks in front -/

theorem angle_not_mem {blanks : List UInt8} (h : ∀ b ∈ blanks, isAsciiBlank b = true) : (60 : UInt8) ∉ blanks :=
  fun hmem => absurd (h 60 hmem) (by decide)

theorem looksLikeSvg_blanks_append {blanks data : List UInt8} (h : ∀ b ∈ blanks, isAsciiBlank b = true)
    (hlength : blanks.length + data.length ≤ 1024) : looksLikeSvg (blanks ++ data) = looksLikeSvg data := by
  have hwhole : (blanks ++ data).length ≤ 1024 := by rwa [List.length_append]
  have hhead : head (blanks ++ data) = head data := by
    unfold head
    rw [List.take_of_length_le hwhole, List.take_of_length_le (by omega), List.dropWhile_append_of_pos h]
  have hinfix : openTag <:+: (blanks ++ data).take 4096 ↔ openTag <:+: data.take 4096 := by
    have htag : openTag = 60 :: [115, 118, 103] := by decide
    rw [List.take_of_length_le (by omega), List.take_of_length_le (by omega), htag]
    exact infix_append_of_not_mem (angle_not_mem h)
  rw [Bool.eq_iff_iff, looksLikeSvg_eq_true, looksLikeSvg_eq_true, hhead, hinfix]

/-- **What more data and what blanks make of the verdict**: more data behind never takes it back, and changes nothing
once there are 4096 bytes; nor do blanks in front, as long as there are at most 1024 bytes with them. -/
theorem looksLikeSvg_stable (data more blanks : List UInt8) :
    (looksLikeSvg data = true → looksLikeSvg (data ++ more) = true) ∧
      (4096 ≤ data.length → looksLikeSvg (data ++ more) = looksLikeSvg data) ∧
      ((∀ b ∈ blanks, isAsciiBlank b = true) → blanks.length + data.length ≤ 1024 →
        looksLikeSvg (blanks ++ data) = looksLikeSvg data) := by
  refine ⟨looksLikeSvg_of_isBeginning (List.prefix_append data more), fun hlong => ?_, looksLikeSvg_blanks_append⟩
  rw [← looksLikeSvg_take (data ++ more), List.take_append_of_le_length hlong, looksLikeSvg_take]

/-- A declaration and the element behind it. -/
def declared : List UInt8 := ascii "<?xml?>\n<svg/>"

/-- An element that begins within the first 4096 bytes and ends behind them. -/
def straddling : List UInt8 := ascii "<?xml" ++ (List.replicate 4089 32 ++ ascii "<svg/>")

theorem declared_stays_recognised :
    looksLikeSvg declared = true ∧ looksLikeSvg (declared ++ ascii "<svg/>") = true ∧
      4096 ≤ straddling.length ∧ looksLikeSvg (straddling ++ ascii "<svg/>") = looksLikeSvg straddling ∧
      (∀ b ∈ ascii " \t\r\n", isAsciiBlank b = true) ∧ (ascii " \t\r\n").length + declared.length ≤ 1024 ∧
      looksLikeSvg (ascii " \t\r\n" ++ declared) = looksLikeSvg declared := by
  have hsvg : looksLikeSvg declared = true := by decide
  have hlong : 4096 ≤ straddling.length := by
    rw [straddling, List.length_append, List.length_append, List.length_replicate]
    decide
  have hblanks : ∀ b ∈ ascii " \t\r\n", isAsciiBlank b = true := List.all_eq_true.1 (by decide)
  have hlength : (ascii " \t\r\n").length + declared.length ≤ 1024 := by decide
  obtain ⟨hmore, -, hfront⟩ := looksLikeSvg_stable declared (ascii "<svg/>") (ascii " \t\r\n")
  obtain ⟨-, hbehind, -⟩ := looksLikeSvg_stable straddling (ascii "<svg/>") []
  exact ⟨hsvg, hmore hsvg, hlong, hbehind hlong, hblanks, hlength, hfront hblanks hlength⟩

end Svg
end RasterSketch
