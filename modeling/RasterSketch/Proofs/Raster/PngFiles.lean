import Mathlib.Tactic.Ring
import RasterSketch.Raster.Image
/-!
# PNG files

A picture is written as PNG in one way only but for the first two bytes of its stream (`Png.StreamStart`): rows without
a filter, in one stored block, in one chunk (`Png.file`).  The decoder finds in such a file the header and the samples
that it was written from (`Png.header?_file`, `Png.samples_file`).
-/
namespace RasterSketch

/-! ## Bytes -/

/-- The last bytes of a number, the most significant first. -/
def lastBytes : (count : Nat) → Nat → List UInt8
  | 0, _ => []
  | k + 1, n => lastBytes k (n / 256) ++ [UInt8.ofNat n]

theorem length_lastBytes : ∀ count n, (lastBytes count n).length = count
  | 0, _ => rfl
  | k + 1, n => by rw [lastBytes, List.length_append, length_lastBytes k, List.length_singleton]

theorem bigEndian_lastBytes : ∀ count n, bigEndian (lastBytes count n) = n % 256 ^ count
  | 0, n => (Nat.mod_one n).symm
  | k + 1, n => by
    have hlast : (UInt8.ofNat n).toNat = n % 256 := UInt8.toNat_ofNat'
    have ih := bigEndian_lastBytes k (n / 256)
    unfold bigEndian at ih
    rw [lastBytes, bigEndian, List.foldl_append, ih, List.foldl_cons, List.foldl_nil, hlast, Nat.pow_succ,
      Nat.mul_comm (256 ^ k), Nat.mod_mul]
    omega

/-- **A number that has room in its bytes is read back.** -/
theorem bigEndian_of_lt {count n : Nat} (h : n < 256 ^ count) : bigEndian (lastBytes count n) = n := by
  rw [bigEndian_lastBytes, Nat.mod_eq_of_lt h]

theorem split?_append {n : Nat} {first : List UInt8} (h : first.length = n) (rest : List UInt8) :
    split? n (first ++ rest) = some (first, rest) := by
  unfold split?
  rw [List.splitAt_eq, List.take_left' h, List.drop_left' h]
  exact if_pos h

theorem after?_append : ∀ start rest : List UInt8, after? start (start ++ rest) = some rest
  | [], _ => rfl
  | s :: start, rest => by rw [List.cons_append, after?, if_pos rfl, after?_append start rest]

theorem remainderSum_lt (bytes : List UInt8) : remainderSum bytes < 256 ^ 4 := UInt32.toNat_lt _

theorem foldl_lt_pairModulus {step : Nat × Nat → UInt8 → Nat × Nat}
    (hstep : ∀ sums b, (step sums b).1 < pairModulus ∧ (step sums b).2 < pairModulus) (bytes : List UInt8) :
    ∀ sums : Nat × Nat, sums.1 < pairModulus ∧ sums.2 < pairModulus →
      (bytes.foldl step sums).1 < pairModulus ∧ (bytes.foldl step sums).2 < pairModulus := by
  induction bytes with
  | nil => exact fun _ h => h
  | cons b bytes ih => exact fun sums _ => ih _ (hstep sums b)

/-- Both sums are remainders all the way. -/
theorem pairSum_lt (bytes : List UInt8) : pairSum bytes < 256 ^ 4 := by
  unfold pairSum
  split
  rename_i low high hpair
  have hsums : (low, high).1 < pairModulus ∧ (low, high).2 < pairModulus := by
    rw [← hpair]
    exact foldl_lt_pairModulus (fun _ _ => ⟨Nat.mod_lt _ (by decide), Nat.mod_lt _ (by decide)⟩) bytes (1, 0) (by decide)
  unfold pairModulus at hsums
  omega

namespace Png

/-! ## Files -/

/-- A chunk of the given type and content. -/
def chunk (type : String) (content : List UInt8) : List UInt8 :=
  lastBytes 4 content.length ++ (ascii type ++ (content ++ lastBytes 4 (remainderSum (ascii type ++ content))))

/-- The number of a mode among those that a file can be in. -/
def colourType? : Mode → Option UInt8
  | .grey => some 0
  | .rgb => some 2
  | .greyAlpha => some 4
  | .rgba => some 6
  | _ => none

/-- What a compressed stream may begin with: the method and the greatest window, then flags that make a multiple of 31
of both, and tell of no dictionary. -/
structure StreamStart where
  method : UInt8
  flags : UInt8
  method_mod : method % 16 = 8
  method_lt : method < 0x80
  flags_mod : bigEndian [method, flags] % 31 = 0
  flags_and : flags &&& 0x20 = 0

/-- A stream of one stored block. -/
def stream (start : StreamStart) (content : List UInt8) : List UInt8 :=
  start.method :: start.flags :: 1 ::
    ((lastBytes 2 content.length).reverse ++ ((lastBytes 2 (0xffff - content.length)).reverse ++
      (content ++ lastBytes 4 (pairSum content))))

/-- Rows of so many bytes, each behind the mark of no filter. -/
def marked (length : Nat) : (rows : Nat) → List UInt8 → List UInt8
  | 0, _ => []
  | k + 1, samples => (0 :: samples.take length) ++ marked length k (samples.drop length)

def headerContent (colourType : UInt8) (width height : Nat) : List UInt8 :=
  lastBytes 4 width ++ (lastBytes 4 height ++ [8, colourType, 0, 0, 0])

/-- The file of a picture of the given samples. -/
def file (start : StreamStart) (mode : Mode) (colourType : UInt8) (width height : Nat) (samples : List UInt8) :
    List UInt8 :=
  signature ++ (chunk "IHDR" (headerContent colourType width height) ++
    (chunk "IDAT" (stream start (marked (width * mode.samples) height samples)) ++ chunk "IEND" []))

/-! ## Chunks -/

theorem chunk?_chunk {type : String} {content : List UInt8} (h : content.length < 256 ^ 4) (rest : List UInt8) :
    chunk? type (chunk type content ++ rest) =
      some (content.length, content ++ (lastBytes 4 (remainderSum (ascii type ++ content)) ++ rest)) := by
  unfold chunk? chunk
  rw [List.append_assoc, split?_append (length_lastBytes 4 _)]
  show (do return (bigEndian (lastBytes 4 content.length), ← after? (ascii type) _)) = _
  rw [List.append_assoc, after?_append, bigEndian_of_lt h, List.append_assoc]
  rfl

theorem afterChecksum?_append (type : String) (content rest : List UInt8) :
    afterChecksum? type content (lastBytes 4 (remainderSum (ascii type ++ content)) ++ rest) = some rest := by
  unfold afterChecksum?
  rw [split?_append (length_lastBytes 4 _)]
  show (if bigEndian _ = _ then _ else _) = _
  rw [bigEndian_of_lt (remainderSum_lt _), if_pos rfl]
  rfl

theorem mode?_colourType {mode : Mode} {colourType : UInt8} (h : colourType? mode = some colourType) :
    mode? colourType = some mode := by
  cases mode <;> cases h <;> rfl

variable {mode : Mode} {colourType : UInt8} {width height : Nat} {samples content : List UInt8}

theorem length_headerContent : (headerContent colourType width height).length = 13 := by
  simp [headerContent, length_lastBytes]

theorem ofContent?_headerContent (hmode : colourType? mode = some colourType) (hw : width < 256 ^ 4)
    (hh : height < 256 ^ 4) (data : List UInt8) :
    ofContent? (headerContent colourType width height) data = some ⟨.png, mode, width, height, data⟩ := by
  unfold ofContent? headerContent
  rw [split?_append (length_lastBytes 4 _)]
  rw [Option.bind_eq_bind, Option.bind_some]
  dsimp only
  rw [split?_append (length_lastBytes 4 _)]
  show (do
    let mode ← mode? colourType
    return ImageHeader.mk .png mode (bigEndian (lastBytes 4 width)) (bigEndian (lastBytes 4 height)) data) = _
  rw [mode?_colourType hmode, bigEndian_of_lt hw, bigEndian_of_lt hh]
  rfl

/-! ## The stream -/

theorem length_marked (length : Nat) : ∀ (k : Nat) {samples : List UInt8}, samples.length = k * length →
    (marked length k samples).length = k * (length + 1)
  | 0, _, _ => by rw [marked, List.length_nil, Nat.zero_mul]
  | k + 1, samples, h => by
    rw [Nat.succ_mul] at h
    rw [marked, List.length_append, length_marked length k (by rw [List.length_drop]; omega), List.length_cons,
      List.length_take, Nat.succ_mul]
    omega

/-- **The samples are found in their rows.** -/
theorem rows_marked (missing : ImageError) (length : Nat) : ∀ (k : Nat) {samples : List UInt8},
    samples.length = k * length → rows missing .ended length k (marked length k samples) = .ok samples
  | 0, samples, h => by
    rw [Nat.zero_mul] at h
    rw [List.length_eq_zero_iff.1 h]
    rfl
  | k + 1, samples, h => by
    rw [Nat.succ_mul] at h
    have hrow : (0 :: samples.take length).length = length + 1 := by
      rw [List.length_cons, List.length_take]
      omega
    have hothers : (samples.drop length).length = k * length := by
      rw [List.length_drop]
      omega
    have ih := rows_marked missing length k hothers
    have hsplit : split? (length + 1) (0 :: (samples.take length ++ marked length k (samples.drop length))) =
        some (0 :: samples.take length, marked length k (samples.drop length)) := split?_append hrow _
    rw [marked, List.cons_append]
    unfold rows
    rw [hsplit]
    dsimp only
    rw [if_neg (fun hd => by cases hd.2), if_neg (by decide), if_neg (fun hn => hn rfl), ih]
    show (if _ then _ else _) = _
    split
    · -- Only behind the last row is nothing left.
      rename_i hlast
      have hempty : k * (length + 1) = 0 := by
        rw [← length_marked length k hothers, List.length_eq_zero_iff]
        exact List.isEmpty_iff.1 hlast.1
      obtain rfl : k = 0 := by
        rcases Nat.mul_eq_zero.1 hempty with hk | hl
        · exact hk
        · omega
      rw [Nat.zero_mul, List.replicate_zero, List.append_nil, List.drop_succ_cons, List.drop_zero,
        List.take_of_length_le (by omega)]
    · show Except.ok ((samples.take length) ++ samples.drop length) = _
      rw [List.take_append_drop]

theorem length_stream (start : StreamStart) : (stream start content).length = content.length + 11 := by
  simp only [stream, List.length_cons, List.length_append, List.length_reverse, length_lastBytes]
  omega

theorem block_of_split {l₀ l₁ n₀ n₁ : UInt8} {bytes content rest : List UInt8}
    (hcheck : bigEndian [l₁, l₀] + bigEndian [n₁, n₀] = 0xffff)
    (hsplit : split? (bigEndian [l₁, l₀]) bytes = some (content, rest)) :
    block (l₀ :: l₁ :: n₀ :: n₁ :: bytes) = (content, .ofChecksum content rest) := by
  unfold block
  dsimp only
  rw [if_neg (fun hne => hne hcheck), hsplit]

theorem block_append (h : content.length ≤ 0xffff) :
    block ((lastBytes 2 content.length).reverse ++ ((lastBytes 2 (0xffff - content.length)).reverse ++
      (content ++ lastBytes 4 (pairSum content)))) = (content, .ended) := by
  have hlength : bigEndian (lastBytes 2 content.length) = content.length := bigEndian_of_lt (by omega)
  have hother : bigEndian (lastBytes 2 (0xffff - content.length)) = 0xffff - content.length :=
    bigEndian_of_lt (by omega)
  have hending : StreamEnd.ofChecksum content (lastBytes 4 (pairSum content)) = .ended := by
    unfold StreamEnd.ofChecksum
    have hsplit := split?_append (length_lastBytes 4 (pairSum content)) []
    rw [List.append_nil] at hsplit
    rw [hsplit]
    exact if_pos (bigEndian_of_lt (pairSum_lt content))
  have hcheck : bigEndian (lastBytes 2 content.length) + bigEndian (lastBytes 2 (0xffff - content.length)) = 0xffff := by
    omega
  have hsplit : split? (bigEndian (lastBytes 2 content.length)) (content ++ lastBytes 4 (pairSum content)) =
      some (content, lastBytes 4 (pairSum content)) := split?_append hlength.symm _
  exact (block_of_split hcheck hsplit).trans (by rw [hending])

theorem stored?_stream (start : StreamStart) (h : content.length ≤ 0xffff) :
    stored? (stream start content) = some (content, .ended) := by
  have hstart : ¬ (start.method % 16 ≠ 8 ∨ 0x80 ≤ start.method ∨ bigEndian [start.method, start.flags] % 31 ≠ 0) := by
    rintro (hmethod | hmethod | hflags)
    · exact hmethod start.method_mod
    · exact absurd start.method_lt (UInt8.not_lt.2 hmethod)
    · exact hflags start.flags_mod
  unfold stored? stream
  dsimp only
  rw [if_neg hstart]
  exact congrArg some (block_append h)

/-! ## Decoding -/

/-- What is behind the header of a file. -/
def behindHeader (start : StreamStart) (mode : Mode) (width height : Nat) (samples : List UInt8) : List UInt8 :=
  chunk "IDAT" (stream start (marked (width * mode.samples) height samples)) ++ chunk "IEND" []

variable (start : StreamStart)

theorem chunk?_behindHeader (hlength : samples.length = height * (width * mode.samples))
    (hstored : height * (width * mode.samples + 1) ≤ 0xffff) :
    ∃ rest, chunk? "IDAT" (behindHeader start mode width height samples) =
      some ((stream start (marked (width * mode.samples) height samples)).length,
        stream start (marked (width * mode.samples) height samples) ++ rest) := by
  refine ⟨_, chunk?_chunk ?_ _⟩
  rw [length_stream, length_marked _ _ hlength]
  omega

theorem header?_file (hmode : colourType? mode = some colourType) (hw : width < 256 ^ 4) (hh : height < 256 ^ 4)
    (hlength : samples.length = height * (width * mode.samples))
    (hstored : height * (width * mode.samples + 1) ≤ 0xffff) :
    header? (file start mode colourType width height samples) =
      .ok (some ⟨.png, mode, width, height, behindHeader start mode width height samples⟩) := by
  obtain ⟨rest, hdata⟩ := chunk?_behindHeader start hlength hstored
  have hheader : after? signature (file start mode colourType width height samples) >>= chunk? "IHDR" =
      some (13, headerContent colourType width height ++
        (lastBytes 4 (remainderSum (ascii "IHDR" ++ headerContent colourType width height)) ++
          behindHeader start mode width height samples)) := by
    unfold file
    rw [after?_append]
    show chunk? "IHDR" (chunk "IHDR" _ ++ behindHeader start mode width height samples) = _
    rw [chunk?_chunk (by rw [length_headerContent]; decide), length_headerContent]
  unfold header?
  rw [hheader]
  dsimp only
  rw [split?_append length_headerContent]
  dsimp only
  rw [afterChecksum?_append]
  show Except.ok (if isData (behindHeader start mode width height samples) then
    ofContent? (headerContent colourType width height) (behindHeader start mode width height samples) else none) = _
  rw [isData, hdata, Option.isSome_some, Bool.true_or, if_pos rfl, ofContent?_headerContent hmode hw hh]

theorem samples_file (hlength : samples.length = height * (width * mode.samples))
    (hstored : height * (width * mode.samples + 1) ≤ 0xffff) :
    Png.samples ⟨.png, mode, width, height, behindHeader start mode width height samples⟩ = .ok samples := by
  obtain ⟨rest, hdata⟩ := chunk?_behindHeader start hlength hstored
  unfold Png.samples
  dsimp only
  rw [hdata]
  dsimp only
  rw [List.take_left' rfl, stored?_stream start (by rw [length_marked _ _ hlength]; exact hstored)]
  exact rows_marked _ _ _ hlength

end Png

end RasterSketch
