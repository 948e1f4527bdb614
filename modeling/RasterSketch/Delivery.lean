/-!
# Deliveries

What a scan hands out item by item: an end, a failure, or an item and the rest, which is made only
when it is asked for.  A delivery is known by what it delivers in all (`items`) and by how it ends
(`failure`), and `take`, which stops after a number of items, is described by these two.
-/

namespace RasterSketch

inductive Delivery (ε α : Type) where
  | finished
  | failed (error : ε)
  | item (value : α) (rest : Unit → Delivery ε α)

namespace Delivery

variable {ε α β : Type}

instance : Inhabited (Delivery ε α) := ⟨.finished⟩

/-! ## What is delivered in all -/

def items : Delivery ε α → List α
  | .finished => []
  | .failed _ => []
  | .item a rest => a :: (rest ()).items

def failure : Delivery ε α → Option ε
  | .finished => none
  | .failed e => some e
  | .item _ rest => (rest ()).failure

/-- All items of a delivery that does not fail. -/
def toList (d : Delivery ε α) : Except ε (List α) :=
  match d.failure with
  | none => .ok d.items
  | some e => .error e

/-! ## Building -/

def ofList : List α → Delivery ε α
  | [] => .finished
  | a :: as => .item a fun _ => ofList as

/-- One delivery, and if it does not fail another. -/
def append : Delivery ε α → (Unit → Delivery ε α) → Delivery ε α
  | .finished, d => d ()
  | .failed e, _ => .failed e
  | .item a rest, d => .item a fun _ => (rest ()).append d

/-- The images of the items of a list, up to the first that has none. -/
def traverse (f : β → Except ε α) : List β → Delivery ε α
  | [] => .finished
  | b :: bs => match f b with
    | .ok a => .item a fun _ => traverse f bs
    | .error e => .failed e

theorem failure_append (d : Delivery ε α) (d' : Unit → Delivery ε α) :
    (d.append d').failure = d.failure.or (d' ()).failure := by
  induction d with
  | finished => simp [append, failure]
  | failed e => simp [append, failure]
  | item a rest ih => simpa [append, failure] using ih ()

theorem items_append (d : Delivery ε α) (d' : Unit → Delivery ε α) :
    (d.append d').items =
      d.items ++ (match d.failure with | none => (d' ()).items | some _ => []) := by
  induction d with
  | finished => rfl
  | failed e => rfl
  | item a rest ih => exact congrArg (a :: ·) (ih ())

/-! ## Taking a part -/

/-- How far a request got: all that was asked for, the end, or a failure. -/
inductive Ending (ε : Type) where
  | served
  | finished
  | failed (error : ε)

structure Taken (ε α : Type) where
  items : List α
  ending : Ending ε
  rest : Delivery ε α

/-- Up to `n` items.  Past the last one asked for nothing is looked at, and a delivery that failed
is finished. -/
def take : Nat → Delivery ε α → Taken ε α
  | 0, d => ⟨[], .served, d⟩
  | _ + 1, .finished => ⟨[], .finished, .finished⟩
  | _ + 1, .failed e => ⟨[], .failed e, .finished⟩
  | n + 1, .item a rest =>
    let t := take n (rest ())
    { t with items := a :: t.items }

/-- Everything that is left. -/
def takeAll : Delivery ε α → Taken ε α
  | .finished => ⟨[], .finished, .finished⟩
  | .failed e => ⟨[], .failed e, .finished⟩
  | .item a rest =>
    let t := takeAll (rest ())
    { t with items := a :: t.items }

end Delivery

end RasterSketch
