import RasterSketch.Proofs.Drawing
import RasterSketch.Session.Scanning
/-!
# Scans that are asked in parts

However scans of a buffer are opened, asked and closed in turns, each one answers as if it were alone, and its answers
put together are what it would deliver at once (`Buffer.scans_undisturbed`).

What a scan still has to give is all that is known of it: the items that are left, and the failure behind them
(`OpenScan.items`, `OpenScan.failure`).  One request takes a part of these (`OpenScan.serves_next`), and everything that
is said of a sequence of requests follows from that by induction on the sequence.  Only then do other scans come in,
which leave this one where it is (`Buffer.told_eq_parts`).
-/
namespace RasterSketch

/-! ## Parts of a delivery -/

namespace Delivery

variable {ε α : Type}

def upTo (count : Option Nat) (as : List α) : List α := count.elim as as.take

def behind (count : Option Nat) (as : List α) : List α := count.elim [] as.drop

/-- Whether more is asked for than there is. -/
def exceeds (count : Option Nat) (size : Nat) : Bool := count.all (size < ·)

def both (first second : Option Nat) : Option Nat := first.bind fun m => second.map (m + ·)

theorem upTo_append_behind (count : Option Nat) (as : List α) : upTo count as ++ behind count as = as := by
  cases count with
  | none => exact List.append_nil as
  | some n => exact List.take_append_drop n as

theorem upTo_of_exceeds {count : Option Nat} {as : List α} (h : exceeds count as.length = true) :
    upTo count as = as ∧ behind count as = [] := by
  cases count with
  | none => exact ⟨rfl, rfl⟩
  | some n =>
    have hlt : as.length < n := of_decide_eq_true h
    exact ⟨List.take_of_length_le hlt.le, List.drop_eq_nil_of_le hlt.le⟩

theorem upTo_both (first second : Option Nat) (as : List α) :
    upTo (both first second) as = upTo first as ++ upTo second (behind first as) := by
  cases first with
  | none => cases second <;> simp [upTo, behind, both]
  | some m =>
    cases second with
    | none => exact (List.take_append_drop m as).symm
    | some n => exact List.take_add

theorem exceeds_both (first second : Option Nat) (as : List α) :
    exceeds (both first second) as.length = (exceeds first as.length || exceeds second (behind first as).length) := by
  cases first with
  | none => rfl
  | some m =>
    cases second with
    | none => simp [exceeds, both]
    | some n =>
      rw [Bool.eq_iff_iff]
      simp only [exceeds, both, behind, Option.bind_some, Option.map_some, Option.all_some, Option.elim_some,
        List.length_drop, Bool.or_eq_true, decide_eq_true_eq]
      omega

/-- What a request that goes past the last item finds there. -/
def Ending.atEnd : Option ε → Ending ε
  | none => .finished
  | some e => .failed e

def Ending.error? : Ending ε → Option ε
  | .failed e => some e
  | _ => none

theorem Ending.error?_atEnd (failure : Option ε) : (atEnd failure).error? = failure := by cases failure <;> rfl

/-- **What a request takes, and what it leaves.**  A failure that was found is gone. -/
structure Serves (count : Option Nat) (d : Delivery ε α) (t : Taken ε α) : Prop where
  items_eq : t.items = upTo count d.items
  ending_eq : t.ending = if exceeds count d.items.length then .atEnd d.failure else .served
  rest_items : t.rest.items = behind count d.items
  rest_failure : t.rest.failure = if exceeds count d.items.length then none else d.failure

theorem serves_takeAll : ∀ d : Delivery ε α, Serves none d d.takeAll
  | .finished => ⟨rfl, rfl, rfl, rfl⟩
  | .failed _ => ⟨rfl, rfl, rfl, rfl⟩
  | .item a rest => by
    obtain ⟨hitems, hending, hrest, hfailure⟩ := serves_takeAll (rest ())
    exact ⟨congrArg (a :: ·) hitems, hending, hrest, hfailure⟩

theorem serves_take : ∀ (n : Nat) (d : Delivery ε α), Serves (some n) d (d.take n)
  | 0, d => ⟨rfl, rfl, rfl, rfl⟩
  | _ + 1, .finished => ⟨rfl, rfl, rfl, rfl⟩
  | _ + 1, .failed _ => ⟨rfl, rfl, rfl, rfl⟩
  | n + 1, .item a rest => by
    obtain ⟨hitems, hending, hrest, hfailure⟩ := serves_take n (rest ())
    have hexceeds : exceeds (some (n + 1)) ((rest ()).items.length + 1) = exceeds (some n) (rest ()).items.length := by
      simp [exceeds]
    refine ⟨congrArg (a :: ·) hitems, ?_, hrest, ?_⟩
    · rw [items, List.length_cons, hexceeds]
      exact hending
    · rw [items, List.length_cons, hexceeds]
      exact hfailure

end Delivery

open Delivery (upTo behind exceeds both)

/-! ## One scan -/

inductive ScanItem where
  | sample (s : Sample)
  | band (b : Band)

namespace OpenScan

def items : OpenScan → List ScanItem
  | .samples rest => rest.items.map .sample
  | .bands rest => rest.items.map .band

/-- The failure behind the items that are left. -/
def failure : OpenScan → Option Error
  | .samples rest => rest.failure
  | .bands rest => rest.failure

def Items.list : Items → List ScanItem
  | .samples items => items.map .sample
  | .bands items => items.map .band

theorem serves_takePart {α : Type} (count : Option Nat) (d : Delivery Error α) :
    Delivery.Serves count d (takePart count d) := by
  cases count with
  | none => exact d.serves_takeAll
  | some n => exact d.serves_take n

theorem map_upTo {α β : Type} (f : α → β) (count : Option Nat) (as : List α) :
    (upTo count as).map f = upTo count (as.map f) := by
  cases count with
  | none => rfl
  | some n => exact List.map_take

theorem map_behind {α β : Type} (f : α → β) (count : Option Nat) (as : List α) :
    (behind count as).map f = behind count (as.map f) := by
  cases count with
  | none => rfl
  | some n => exact List.map_drop

structure Serves (count : Option Nat) (s rest : OpenScan) (part : Part) : Prop where
  items_eq : part.items.list = upTo count s.items
  ending_eq : part.ending = if exceeds count s.items.length then .atEnd s.failure else .served
  rest_items : rest.items = behind count s.items
  rest_failure : rest.failure = if exceeds count s.items.length then none else s.failure

theorem Serves.of_delivery {α : Type} {f : α → ScanItem} {count : Option Nat} {d : Delivery Error α}
    {t : Delivery.Taken Error α} (h : Delivery.Serves count d t) {s rest : OpenScan} {part : Part}
    (hs : s.items = d.items.map f ∧ s.failure = d.failure)
    (hpart : part.items.list = t.items.map f ∧ part.ending = t.ending)
    (hrest : rest.items = t.rest.items.map f ∧ rest.failure = t.rest.failure) : Serves count s rest part := by
  have hlength : s.items.length = d.items.length := by rw [hs.1, List.length_map]
  constructor
  · rw [hpart.1, h.items_eq, map_upTo, hs.1]
  · rw [hpart.2, h.ending_eq, hlength, hs.2]
  · rw [hrest.1, h.rest_items, map_behind, hs.1]
  · rw [hrest.2, h.rest_failure, hlength, hs.2]

theorem serves_next (count : Option Nat) (s : OpenScan) : Serves count s (s.next count).1 (s.next count).2 := by
  cases s with
  | samples d => exact .of_delivery (serves_takePart count d) ⟨rfl, rfl⟩ ⟨rfl, rfl⟩ ⟨rfl, rfl⟩
  | bands d => exact .of_delivery (serves_takePart count d) ⟨rfl, rfl⟩ ⟨rfl, rfl⟩ ⟨rfl, rfl⟩

theorem items_closed (s : OpenScan) : s.closed.items = [] := by cases s <;> rfl

theorem failure_closed (s : OpenScan) : s.closed.failure = none := by cases s <;> rfl

/-! ## One scan asked again and again -/

inductive Order where
  | next (count : Option Nat)
  | close

def asked : List Order → Option Nat
  | [] => some 0
  | .next count :: orders => both count (asked orders)
  | .close :: orders => asked orders

def parts : OpenScan → List Order → List Part
  | _, [] => []
  | s, .next count :: orders => (s.next count).2 :: (s.next count).1.parts orders
  | s, .close :: orders => s.closed.parts orders

def after : OpenScan → List Order → OpenScan
  | s, [] => s
  | s, .next count :: orders => (s.next count).1.after orders
  | s, .close :: orders => s.closed.after orders

def delivered (parts : List Part) : List ScanItem := parts.flatMap (·.items.list)

def errors (parts : List Part) : List Error := parts.filterMap (·.ending.error?)

variable {s : OpenScan} {orders : List Order} {count : Option Nat}

theorem delivered_next : delivered (s.parts (.next count :: orders)) =
    upTo count s.items ++ delivered ((s.next count).1.parts orders) := by
  rw [parts, delivered, List.flatMap_cons, (serves_next count s).items_eq]
  rfl

theorem errors_next : errors (s.parts (.next count :: orders)) =
    (if exceeds count s.items.length then s.failure.toList else []) ++
      errors ((s.next count).1.parts orders) := by
  have hending : ((s.next count).2.ending.error?).toList =
      if exceeds count s.items.length then s.failure.toList else [] := by
    rw [(serves_next count s).ending_eq]
    split
    · rw [Delivery.Ending.error?_atEnd]
    · rfl
  rw [← hending, parts, errors, errors, List.filterMap_cons]
  cases (s.next count).2.ending.error? <;> rfl

theorem items_split (s : OpenScan) (count : Option Nat) :
    upTo count s.items ++ (s.next count).1.items = s.items := by
  rw [(serves_next count s).rest_items, Delivery.upTo_append_behind]

/-- **Nothing is lost and nothing is repeated.** -/
theorem isPrefix_delivered : ∀ (s : OpenScan) (orders : List Order), delivered (s.parts orders) <+: s.items
  | s, [] => List.nil_prefix
  | s, .next count :: orders => by
    rw [delivered_next]
    calc upTo count s.items ++ delivered ((s.next count).1.parts orders)
        <+: upTo count s.items ++ (s.next count).1.items :=
          (List.prefix_append_right_inj _).2 (isPrefix_delivered _ orders)
      _ = s.items := items_split s count
  | s, .close :: orders => by
    have h := isPrefix_delivered s.closed orders
    rw [items_closed, List.prefix_nil] at h
    rw [parts, h]
    exact List.nil_prefix

theorem delivered_of_items (h : s.items = []) : delivered (s.parts orders) = [] :=
  List.prefix_nil.1 (h ▸ isPrefix_delivered s orders)

/-- **A failure is told once, and behind all items.** -/
theorem errors_once : ∀ (s : OpenScan) (orders : List Order), errors (s.parts orders) = [] ∨
    ∃ e, s.failure = some e ∧ errors (s.parts orders) = [e] ∧ delivered (s.parts orders) = s.items
  | s, [] => .inl rfl
  | s, .next count :: orders => by
    have hserves := serves_next count s
    have hrest := errors_once (s.next count).1 orders
    rw [errors_next, delivered_next]
    cases hexceeds : exceeds count s.items.length with
    | true =>
      -- the failure, if there is one, is told now, and nothing is left
      have hfailure : (s.next count).1.failure = none := by rw [hserves.rest_failure, hexceeds, if_pos rfl]
      have hitems : (s.next count).1.items = [] := hserves.rest_items.trans (Delivery.upTo_of_exceeds hexceeds).2
      have herrors : errors ((s.next count).1.parts orders) = [] := by
        rcases hrest with h | ⟨e, he, -⟩
        · exact h
        · rw [hfailure] at he
          cases he
      rw [herrors, delivered_of_items hitems, (Delivery.upTo_of_exceeds hexceeds).1, if_pos rfl]
      cases hs : s.failure with
      | none => exact .inl rfl
      | some e => exact .inr ⟨e, rfl, rfl, List.append_nil _⟩
    | false =>
      have hfailure : (s.next count).1.failure = s.failure := by rw [hserves.rest_failure, hexceeds]; rfl
      rcases hrest with h | ⟨e, he, herrors, hdelivered⟩
      · exact .inl h
      · exact .inr ⟨e, hfailure ▸ he, herrors, by rw [hdelivered, items_split]⟩
  | s, .close :: orders => by
    rcases errors_once s.closed orders with h | ⟨e, he, -⟩
    · exact .inl h
    · rw [failure_closed] at he
      cases he

theorem errors_of_failure (h : s.failure = none) : errors (s.parts orders) = [] := by
  rcases errors_once s orders with h' | ⟨e, he, -⟩
  · exact h'
  · rw [h] at he
    cases he

/-- **A scan that is not closed gives what it is asked for**, and tells its failure when it is asked for more than there
is. -/
theorem parts_of_open : ∀ (s : OpenScan) {orders : List Order}, .close ∉ orders →
    delivered (s.parts orders) = upTo (asked orders) s.items ∧
      errors (s.parts orders) = if exceeds (asked orders) s.items.length then s.failure.toList else []
  | s, [], _ => ⟨rfl, rfl⟩
  | s, .next count :: orders, h => by
    have hserves := serves_next count s
    obtain ⟨hdelivered, herrors⟩ := parts_of_open (s.next count).1 fun hc => h (List.mem_cons_of_mem _ hc)
    rw [hserves.rest_items] at hdelivered herrors
    rw [delivered_next, errors_next, hdelivered, herrors, asked, Delivery.upTo_both, Delivery.exceeds_both]
    refine ⟨rfl, ?_⟩
    rw [hserves.rest_failure]
    -- a failure that is told now is not told again later
    cases exceeds count s.items.length with
    | true => simp
    | false => rfl
  | s, .close :: orders, h => absurd List.mem_cons_self h

theorem parts_append : ∀ (s : OpenScan) (first second : List Order),
    s.parts (first ++ second) = s.parts first ++ (s.after first).parts second
  | _, [], _ => rfl
  | s, .next count :: first, second => congrArg ((s.next count).2 :: ·) (parts_append _ first second)
  | _, .close :: first, second => parts_append _ first second

/-- **A scan that was closed gives nothing more.** -/
theorem parts_of_closed (s : OpenScan) (first second : List Order) :
    delivered (s.parts (first ++ .close :: second)) = delivered (s.parts first) ∧
      errors (s.parts (first ++ .close :: second)) = errors (s.parts first) := by
  rw [parts_append, parts, delivered, errors, List.flatMap_append, List.filterMap_append]
  have hdelivered : ((s.after first).closed.parts second).flatMap (·.items.list) = [] :=
    delivered_of_items (items_closed _)
  have herrors : ((s.after first).closed.parts second).filterMap (·.ending.error?) = [] :=
    errors_of_failure (failure_closed _)
  rw [hdelivered, herrors, List.append_nil, List.append_nil]
  exact ⟨rfl, rfl⟩

/-- What is left of a scan that is open and has not failed. -/
theorem after_of_open : ∀ (s : OpenScan) {orders : List Order}, .close ∉ orders → errors (s.parts orders) = [] →
    delivered (s.parts orders) ++ (s.after orders).items = s.items ∧ (s.after orders).failure = s.failure
  | s, [], _, _ => ⟨rfl, rfl⟩
  | s, .next count :: orders, h, herrors => by
    rw [errors_next, List.append_eq_nil_iff] at herrors
    obtain ⟨hnow, hlater⟩ := herrors
    obtain ⟨hdelivered, hfailure⟩ := after_of_open (s.next count).1 (fun hc => h (List.mem_cons_of_mem _ hc)) hlater
    -- a request that told no error has left the failure, or found that there is none
    have hsame : (s.next count).1.failure = s.failure := by
      rw [(serves_next count s).rest_failure]
      split at hnow
      · rw [Option.toList_eq_nil_iff] at hnow
        simp [hnow]
      · rename_i hexceeds
        rw [if_neg hexceeds]
    refine ⟨?_, hfailure.trans hsame⟩
    rw [delivered_next, List.append_assoc, after, hdelivered, items_split]
  | s, .close :: orders, h, _ => absurd List.mem_cons_self h

/-- **The end is told where there is nothing more**, unless the scan was closed or has failed. -/
theorem of_finished {part : Part} (h : s.parts (orders ++ [.next count]) = s.parts orders ++ [part])
    (hfinished : part.ending = .finished) : .close ∈ orders ∨ errors (s.parts orders) ≠ [] ∨
      (delivered (s.parts orders) ++ part.items.list = s.items ∧ s.failure = none) := by
  by_cases hclose : .close ∈ orders
  · exact .inl hclose
  by_cases herrors : errors (s.parts orders) = []
  · obtain ⟨hitems, hfailure⟩ := after_of_open s hclose herrors
    have hserves := serves_next count (s.after orders)
    have hpart : ((s.after orders).next count).2 = part := by
      rw [parts_append] at h
      exact List.singleton_inj.1 (List.append_cancel_left h)
    rw [hpart] at hserves
    have hending := hserves.ending_eq
    rw [hfinished] at hending
    split at hending
    · rename_i hexceeds
      refine .inr (.inr ⟨?_, ?_⟩)
      · rw [hserves.items_eq, (Delivery.upTo_of_exceeds hexceeds).1, hitems]
      · rw [← hfailure]
        cases hs : (s.after orders).failure with
        | none => rfl
        | some e => rw [hs] at hending; cases hending
    · cases hending
  · exact .inr (.inl herrors)

/-- The answers of a scan, put together, are what it would deliver at once: the first items as far as it is asked, and
the failure once it is asked for more than there is.  A scan that is closed gives no more than it has given.  An end is
told of a scan that has neither items nor a failure left, or that was closed or has told its failure before. -/
structure Faithful (s : OpenScan) : Prop where
  isPrefix_delivered : ∀ orders, delivered (s.parts orders) <+: s.items
  of_open : ∀ orders, .close ∉ orders → delivered (s.parts orders) = upTo (asked orders) s.items ∧
    errors (s.parts orders) = if exceeds (asked orders) s.items.length then s.failure.toList else []
  of_failed : ∀ orders, errors (s.parts orders) = [] ∨
    ∃ e, s.failure = some e ∧ errors (s.parts orders) = [e] ∧ delivered (s.parts orders) = s.items
  of_closed : ∀ first second, delivered (s.parts (first ++ .close :: second)) = delivered (s.parts first) ∧
    errors (s.parts (first ++ .close :: second)) = errors (s.parts first)
  of_finished : ∀ orders count part, s.parts (orders ++ [.next count]) = s.parts orders ++ [part] →
    part.ending = .finished → .close ∈ orders ∨ errors (s.parts orders) ≠ [] ∨
      (delivered (s.parts orders) ++ part.items.list = s.items ∧ s.failure = none)

theorem faithful (s : OpenScan) : s.Faithful :=
  ⟨s.isPrefix_delivered, fun _ => s.parts_of_open, s.errors_once, s.parts_of_closed, fun _ _ _ => of_finished⟩

end OpenScan

/-! ## Scans in turns -/

def ScanningStep.name : ScanningStep → Text
  | .begin name _ => name
  | .next name _ => name
  | .close name => name

/-- What a step says to the scan of a name, once that is open. -/
def ScanningStep.orderTo? (name : Text) : ScanningStep → Option OpenScan.Order
  | .begin _ _ => none
  | .next called count => if called = name then some (.next count) else none
  | .close called => if called = name then some .close else none

def ScanningAnswer.part? : ScanningAnswer → Option OpenScan.Part
  | .part p => some p
  | _ => none

/-- The parts that the steps on a name were answered with. -/
def told (name : Text) (steps : List ScanningStep) (answers : List (Except Error ScanningAnswer)) :
    List OpenScan.Part :=
  (steps.zip answers).filterMap fun p => if p.1.name = name then p.2.toOption.bind ScanningAnswer.part? else none

section

variable {name : Text} {step : ScanningStep} {steps : List ScanningStep} {answer : Except Error ScanningAnswer}
  {answers : List (Except Error ScanningAnswer)}

theorem told_cons (h : step.name = name) : told name (step :: steps) (answer :: answers) =
    (answer.toOption.bind ScanningAnswer.part?).toList ++ told name steps answers := by
  rw [told, List.zip_cons_cons, List.filterMap_cons, if_pos h]
  cases answer.toOption.bind ScanningAnswer.part? <;> rfl

theorem told_cons_of_ne (h : step.name ≠ name) : told name (step :: steps) (answer :: answers) =
    told name steps answers := by
  rw [told, List.zip_cons_cons, List.filterMap_cons, if_neg h]
  rfl

end

theorem answers_cons {σ ι α : Type} (step : σ → ι → σ × α) (s : σ) (i : ι) (is : List ι) :
    (runSession step s (i :: is)).2 = (step s i).2 :: (runSession step (step s i).1 is).2 := rfl

theorem length_answers {σ ι α : Type} (step : σ → ι → σ × α) : ∀ (s : σ) (is : List ι),
    (runSession step s is).2.length = is.length
  | _, [] => rfl
  | s, i :: is => congrArg (· + 1) (length_answers step (step s i).1 is)

namespace Buffer

variable {b : Buffer} {scans : Named OpenScan} {name : Text} {s : OpenScan}

/-- **A step on one scan leaves the others where they are.** -/
theorem find?_scanningStep_of_ne {step : ScanningStep} (h : step.name ≠ name) :
    (scanningStep b scans step).1.find? name = scans.find? name := by
  cases step with
  | begin called request => exact (Named.find?_set ..).trans (if_neg (Ne.symm h))
  | next called count =>
    rw [scanningStep]
    split
    · rfl
    · exact (Named.find?_set ..).trans (if_neg (Ne.symm h))
  | close called =>
    rw [scanningStep]
    split
    · rfl
    · exact (Named.find?_set ..).trans (if_neg (Ne.symm h))

/-- **The answers to a scan are those to its own orders**, whatever is said to other scans in between. -/
theorem told_eq_parts : ∀ {steps : List ScanningStep} {scans : Named OpenScan} {s : OpenScan},
    scans.find? name = some s → (∀ request, .begin name request ∉ steps) →
    told name steps (runSession (scanningStep b) scans steps).2 = s.parts (steps.filterMap (·.orderTo? name))
  | [], _, _, _, _ => rfl
  | step :: steps, scans, s, hs, hsteps => by
    have hlater : ∀ request, .begin name request ∉ steps := fun request h =>
      hsteps request (List.mem_cons_of_mem _ h)
    rw [answers_cons, List.filterMap_cons]
    by_cases hname : step.name = name
    · cases step with
      | begin called request =>
        obtain rfl : name = called := hname.symm
        exact absurd List.mem_cons_self (hsteps request)
      | next called count =>
        obtain rfl : name = called := hname.symm
        have hstep : scanningStep b scans (.next name count) =
            (scans.set name (s.next count).1, .ok (.part (s.next count).2)) := by
          rw [scanningStep, hs]
        have hfind : (scans.set name (s.next count).1).find? name = some (s.next count).1 :=
          (Named.find?_set ..).trans (if_pos rfl)
        rw [hstep, told_cons hname, told_eq_parts hfind hlater,
          show (ScanningStep.next name count).orderTo? name = some (.next count) from if_pos rfl]
        rfl
      | close called =>
        obtain rfl : name = called := hname.symm
        have hstep : scanningStep b scans (.close name) = (scans.set name s.closed, .ok (.closed name)) := by
          rw [scanningStep, hs]
        have hfind : (scans.set name s.closed).find? name = some s.closed :=
          (Named.find?_set ..).trans (if_pos rfl)
        rw [hstep, told_cons hname, told_eq_parts hfind hlater,
          show (ScanningStep.close name).orderTo? name = some .close from if_pos rfl]
        rfl
    -- a step on another scan is no order to this one, and is not answered for it
    · have hother : step.orderTo? name = none := by
        cases step with
        | begin called request => rfl
        | next called count => exact if_neg hname
        | close called => exact if_neg hname
      have hfind : (scanningStep b scans step).1.find? name = some s :=
        (find?_scanningStep_of_ne hname).trans hs
      rw [hother, ← told_eq_parts hfind hlater]
      exact told_cons_of_ne hname

/-- **Scans do not disturb each other**: since a scan was last opened its answers are those to its own orders, and put
together they are what it would deliver at once. -/
theorem scans_undisturbed (b : Buffer) (earlier later : List ScanningStep) (name : Text) (request : ScanRequest)
    (hlater : ∀ again, .begin name again ∉ later) :
    told name later
        ((runSession (scanningStep b) .empty (earlier ++ .begin name request :: later)).2.drop (earlier.length + 1)) =
      (request.scan b).parts (later.filterMap (·.orderTo? name)) ∧ (request.scan b).Faithful := by
  refine ⟨?_, (request.scan b).faithful⟩
  have hopened : ((runSession (scanningStep b) .empty earlier).1.set name (request.scan b)).find? name =
      some (request.scan b) := (Named.find?_set ..).trans (if_pos rfl)
  rw [← told_eq_parts (b := b) hopened hlater, runSession_append]
  have hdrop : ∀ (answers more : List (Except Error ScanningAnswer)) (opened : Except Error ScanningAnswer),
      answers.length = earlier.length → (answers ++ opened :: more).drop (earlier.length + 1) = more := by
    intro answers more opened h
    rw [← h, ← List.drop_drop, List.drop_left]
    rfl
  rw [answers_cons, hdrop _ _ _ (length_answers _ _ _)]
  rfl

/-- Three scans of a buffer in turns, of which one has no step, and two are under one name. -/
def turns : List ScanningStep :=
  [.next "a" (some 2), .begin "b" (.bands 1 1 1), .next "b" (some 1), .begin "c" (.samples 0 1 0), .next "a" (some 2),
    .next "c" none, .next "b" none, .close "b", .next "a" none, .next "a" (some 1)]

theorem turns_undisturbed : (∀ again, .begin "a" again ∉ turns) ∧
    told "a" turns ((runSession (scanningStep threeByTwo) .empty
        ([.begin "a" (.bands 0 1 1)] ++ .begin "a" (.samples 2 (.real 1.5) 0) :: turns)).2.drop 2) =
      ((ScanRequest.samples 2 (.real 1.5) 0).scan threeByTwo).parts (turns.filterMap (·.orderTo? "a")) ∧
        ((ScanRequest.samples 2 (.real 1.5) 0).scan threeByTwo).Faithful := by
  have hlater : ∀ again, .begin "a" again ∉ turns := by
    have hnames : ("a" : Text) ≠ "b" ∧ ("a" : Text) ≠ "c" := by decide
    intro again
    simp [turns, hnames]
  exact ⟨hlater, scans_undisturbed threeByTwo [.begin "a" (.bands 0 1 1)] turns "a" (.samples 2 (.real 1.5) 0) hlater⟩

/-- An end is also told of a scan that was closed, although it had all its items left. -/
theorem closed_early_ends : ¬ ∀ (b : Buffer) (later : List ScanningStep) (name : Text) (request : ScanRequest),
    (∀ again, .begin name again ∉ later) → ∀ parts part,
      told name later ((runSession (scanningStep b) .empty (.begin name request :: later)).2.drop 1) = parts ++ [part] →
        part.ending = .finished →
          OpenScan.delivered (parts ++ [part]) = (request.scan b).items ∧ (request.scan b).failure = none := by
  intro h
  have hends := h threeByTwo [.close "a", .next "a" (some 1)] "a" (.samples 1 1 0) (by simp) [] ⟨.samples [], .finished⟩
    rfl rfl
  have hitems : ((ScanRequest.samples 1 1 0).scan threeByTwo).items.length = 6 := by decide +kernel
  rw [← hends.1] at hitems
  cases hitems

end Buffer

end RasterSketch
