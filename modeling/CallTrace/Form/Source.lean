import CallTrace.Form

/-!
# Source texts of forms

A form is shown as the source text it could have been read from. That takes two steps: the numbers
in the store are followed until a tree is left in which nothing is a reference any more, and the
tree is written down. Only the first step can go on for ever, namely when a list is reached from
itself. A path that meets no form twice is no longer than the store, so following it one step
further tells.
-/

namespace CallTrace

/-- A form with all its parts, independent of any store. -/
inductive SourceTree
  /-- Stands where the store had no form. -/
  | unknown
  | nil
  | bool (b : Bool)
  | int (n : Int64)
  | str (s : String)
  | symbol (text : String)
  | list (items : List SourceTree)

namespace SourceTree

mutual

/-- Adds the text of a tree to the end of `out`. -/
def writeTo : SourceTree → String → String
  | .unknown, out => out ++ "<unknown>"
  | .nil, out => out ++ "nil"
  | .bool b, out => out ++ (if b then "true" else "false")
  | .int n, out => out ++ toString n.toInt
  | .str s, out => out ++ Text.quoted .literal s
  | .symbol text, out => out ++ text
  | .list items, out => (writeItemsTo items (out.push '(')).push ')'

/-- Adds the texts of the items of a list to the end of `out`, with a space between neighbours. -/
def writeItemsTo : List SourceTree → String → String
  | [], out => out
  | [item], out => item.writeTo out
  | item :: next :: rest, out => writeItemsTo (next :: rest) ((item.writeTo out).push ' ')

end

/-- The text of a tree. -/
def render (t : SourceTree) : String :=
  t.writeTo ""

end SourceTree

namespace FormStore

/-- The tree below a place, if no path from there has more than `depth` forms. -/
def treeWithin (s : FormStore) (symbols : SymbolTable) : Nat → FormId → Option SourceTree
  | 0, _ => none
  | depth + 1, id =>
    match s.get? id with
    | none => some .unknown
    | some form =>
      match form.kind with
      | .nil => some .nil
      | .bool b => some (.bool b)
      | .int n => some (.int n)
      | .str text => some (.str text)
      | .symbol name => some (.symbol (symbols.text name))
      | .list items => (items.mapM (s.treeWithin symbols depth)).map .list

/-- The tree below a place, unless a list is reached from itself. -/
def tree? (s : FormStore) (symbols : SymbolTable) (id : FormId) : Option SourceTree :=
  s.treeWithin symbols (s.size + 1) id

/-- The source text of the form at a place. Where a list is reached from itself it would have no
end. -/
def render (s : FormStore) (symbols : SymbolTable) (id : FormId) : Option String :=
  (s.tree? symbols id).map SourceTree.render

end FormStore

end CallTrace
