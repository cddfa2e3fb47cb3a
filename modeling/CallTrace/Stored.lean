import CallTrace.Traceback

/-!
# Stored forms

Identities, spans, frames and tracebacks can be stored as documents: numbers, and records of named
fields. A record is written as an object. It is read from an object, where fields may stand in any
order and others are ignored, or from an array of exactly its fields in their own order.
-/

namespace CallTrace

/-- A document as data formats have it. -/
inductive Document
  | null
  | bool (b : Bool)
  | integer (n : Int)
  /-- A number that is not written as an integer. -/
  | decimal (text : String)
  | string (s : String)
  | array (items : List Document)
  | object (fields : List (String × Document))
deriving Inhabited

/-- What can be written as a document and read from one. -/
class Stored (α : Type) where
  toDocument : α → Document
  ofDocument? : Document → Option α

export Stored (toDocument ofDocument?)

namespace Document

/-- The document of a 32-bit number. -/
def ofWord (n : UInt32) : Document := .integer n.toNat

/-- The 32-bit number that a document is. -/
def word? : Document → Option UInt32
  | .integer n => if 0 ≤ n ∧ n < UInt32.size then some (UInt32.ofNat n.toNat) else none
  | _ => none

/-- The items of an array. -/
def items? : Document → Option (List Document)
  | .array items => some items
  | _ => none

/-- The value of a field that an object has exactly once. -/
def field? (fields : List (String × Document)) (key : String) : Option Document :=
  match fields.filter (·.1 = key) with
  | [(_, value)] => some value
  | _ => none

/-- The fields of a record, in the order of `keys`. -/
def record? (keys : List String) : Document → Option (List Document)
  | .array items => if items.length = keys.length then some items else none
  | .object fields => keys.mapM (field? fields)
  | _ => none

end Document

/-! ## Identities -/

instance : Stored Symbol where
  toDocument s := .ofWord s.raw
  ofDocument? d := d.word?.map Symbol.mk

instance : Stored CallableId where
  toDocument id := .ofWord id.raw
  ofDocument? d := d.word?.map CallableId.mk

instance : Stored FormId where
  toDocument id := .ofWord id.raw
  ofDocument? d := d.word?.map FormId.mk

/-! ## Records -/

namespace Span

/-- The fields of a stored span. -/
def keys : List String := ["start", "end"]

/-- Reads a span from its fields. -/
def ofFields? : List Document → Option Span
  | [start, stop] => return ⟨← start.word?, ← stop.word?⟩
  | _ => .none

end Span

instance : Stored Span where
  toDocument s := .object [("start", .ofWord s.start), ("end", .ofWord s.stop)]
  ofDocument? d := (d.record? Span.keys).bind Span.ofFields?

namespace Frame

/-- The fields of a stored frame. -/
def keys : List String := ["repeat_count", "callable", "call_site"]

/-- Reads a frame from its fields. -/
def ofFields? : List Document → Option Frame
  | [repeats, callable, site] =>
    return ⟨← repeats.word?, ← ofDocument? callable, ← ofDocument? site⟩
  | _ => none

end Frame

instance : Stored Frame where
  toDocument f := .object
    [("repeat_count", .ofWord f.repeats), ("callable", toDocument f.callable),
     ("call_site", toDocument f.site)]
  ofDocument? d := (d.record? Frame.keys).bind Frame.ofFields?

namespace Traceback

/-- The fields of a stored traceback. -/
def keys : List String := ["frames"]

/-- Reads a traceback from its fields. -/
def ofFields? : List Document → Option Traceback
  | [frames] => do
    let items ← frames.items?
    return ⟨← items.mapM ofDocument?⟩
  | _ => none

end Traceback

instance : Stored Traceback where
  toDocument t := .object [("frames", .array (t.frames.map toDocument))]
  ofDocument? d := (d.record? Traceback.keys).bind Traceback.ofFields?

end CallTrace
