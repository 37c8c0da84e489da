import Cuesheet.Datum.Basic

/-!
# Tables of a TOML document

A document fills its tables line by line. `Node` keeps what decides whether a later line may add to
a table: whether the table was only mentioned on the way to another (`implicit`), and whether it
came from a key with points (`dotted`). A table may be opened by a header once; keys with points may
only go through tables that such keys made.
-/

namespace Cuesheet.Toml

inductive Node where
  | leaf (d : Datum)
  | table (implicit dotted : Bool) (members : List (String × Node))
  | rows (tables : List Node)

namespace Node

def empty (implicit dotted : Bool) : Node := .table implicit dotted []

/-- Members with one of them replaced, or added at the end. -/
def put (name : String) (child : Node) : List (String × Node) → List (String × Node)
  | [] => [(name, child)]
  | (n, c) :: rest => if n = name then (n, child) :: rest else (n, c) :: put name child rest

def without (name : String) (members : List (String × Node)) : List (String × Node) :=
  members.filter (·.1 != name)

/-- Changes the table at the end of a path. Tables that are missing on the way are made. A row of
    tables is entered at its last table. -/
def alter (dotted : Bool) (change : Node → Option Node) : List String → Node → Option Node
  | [], node => change node
  | name :: path, .table i d members =>
    match (members.lookup name).getD (empty true dotted) with
    | .leaf _ => none
    | .table i' d' members' =>
      if dotted && !i' then none
      else do
        let child ← alter dotted change path (.table i' d' members')
        pure (.table i d (put name child members))
    | .rows tables => do
      let last ← tables.getLast?
      let child ← alter dotted change path last
      pure (.table i d (put name (.rows (tables.dropLast ++ [child])) members))
  | _, _ => none

/-- Adds a value under a key. The table that takes it has to be of the kind the key asks for. -/
def addValue (path : List String) (name : String) (d : Datum) (node : Node) : Option Node :=
  let add : Node → Option Node
    | .table i dotted members =>
      if dotted == path.isEmpty then none
      else if (members.lookup name).isSome then none
      else some (.table i dotted (members ++ [(name, .leaf d)]))
    | _ => none
  alter true add path node

mutual

def datum : Node → Datum
  | .leaf d => d
  | .table _ _ members => .record (memberData members)
  | .rows tables => .list (rowData tables)

def memberData : List (String × Node) → List (String × Datum)
  | [] => []
  | (name, node) :: rest => (name, node.datum) :: memberData rest

def rowData : List Node → List Datum
  | [] => []
  | node :: rest => node.datum :: rowData rest

end

end Node

/-- A document that is being read: the tables that are complete, and the table that takes the next
    lines, which joins them when another one is opened. -/
structure Draft where
  complete : Node := .empty false false
  current : Node := .empty false false
  path : List String := []
  isRow : Bool := false

namespace Draft

def close? (draft : Draft) : Option Node :=
  match draft.path.getLast? with
  | none => some draft.current
  | some name =>
    let join : Node → Option Node
      | .table i d members =>
        if draft.isRow then
          match (members.lookup name).getD (.rows []) with
          | .rows tables =>
            some (.table i d (Node.put name (.rows (tables ++ [draft.current])) members))
          | _ => none
        else if (members.lookup name).isSome then none
        else some (.table i d (members ++ [(name, draft.current)]))
      | _ => none
    Node.alter false join draft.path.dropLast draft.complete

def addValue? (draft : Draft) (path : List String) (name : String) (d : Datum) : Option Draft :=
  (draft.current.addValue path name d).map fun node => { draft with current := node }

/-- Opens a table. If it was only mentioned so far, it keeps the tables in it. -/
def openTable? (draft : Draft) (path : List String) : Option Draft := do
  let complete ← draft.close?
  let name ← path.getLast?
  let find : Node → Option Node
    | .table i d members =>
      match members.lookup name with
      | none => some (.table i d members)
      | some (.table true false _) => some (.table i d (Node.without name members))
      | some _ => none
    | _ => none
  let kept := match lookupPath path complete with
    | some (.table _ _ members) => members
    | _ => []
  let complete ← Node.alter false find path.dropLast complete
  pure { complete, current := .table false false kept, path, isRow := false }
where
  lookupPath : List String → Node → Option Node
    | [], node => some node
    | name :: path, .table _ _ members => (members.lookup name).bind (lookupPath path)
    | name :: path, .rows tables => match tables.getLast? with
      | some (.table _ _ members) => (members.lookup name).bind (lookupPath path)
      | _ => none
    | _, _ => none

def openRow? (draft : Draft) (path : List String) : Option Draft := do
  let complete ← draft.close?
  let name ← path.getLast?
  let prepare : Node → Option Node
    | .table i d members =>
      match (members.lookup name).getD (.rows []) with
      | .rows tables => some (.table i d (Node.put name (.rows tables) members))
      | _ => none
    | _ => none
  let complete ← Node.alter false prepare path.dropLast complete
  pure { complete, current := .empty false false, path, isRow := true }

end Draft

end Cuesheet.Toml
