import PropertyLayers.Keyed
import PropertyLayers.Toml.Reader
import PropertyLayers.Value

/-!
# TOML tables under construction

Keys lead through tables, and where they meet a list of tables, through its last table. A key path
is declared once by a header or by a dotted key, and what an inline table or a list holds is frozen.
-/

namespace PropertyLayers.Toml

abbrev KeyPath := List Text

/-- Changes the table at the end of the path, where missing tables on the way are made. Only if
`throughLists` holds does a path lead through lists. -/
def changeAt (throughLists : Bool) (change : Table → Option Table) : KeyPath → Table → Option Table
  | [], t => change t
  | key :: path, t =>
    match Keyed.find? key t with
    | none =>
      (changeAt throughLists change path []).map fun inner => Keyed.put key (.table inner) t
    | some (.table inner) =>
      (changeAt throughLists change path inner).map fun inner => Keyed.put key (.table inner) t
    | some (.list items) =>
      if throughLists then
        match items.getLast? with
        | some (.table last) =>
          (changeAt throughLists change path last).map fun last =>
            Keyed.put key (.list (items.dropLast ++ [.table last])) t
        | _ => none
      else none
    | some _ => none

/-- A new entry; a key that is there is not overwritten. -/
def addEntry (key : Text) (value : Value) (t : Table) : Option Table :=
  match Keyed.find? key t with
  | some _ => none
  | none => some (Keyed.put key value t)

/-- A new table at the end of the list under the key. -/
def addItem (key : Text) (t : Table) : Option Table :=
  match Keyed.find? key t with
  | some (.list items) => some (Keyed.put key (.list (items ++ [.table []])) t)
  | some _ => none
  | none => some (Keyed.put key (.list [.table []]) t)

/-- The key paths that may not be used again: frozen ones with all that lies under them, declared
ones by themselves, and pending ones from the next header on. -/
structure Reserved where
  frozen : List KeyPath
  declared : List KeyPath
  pending : List KeyPath

namespace Reserved

def none : Reserved := ⟨[], [], []⟩

def isFrozen (r : Reserved) (path : KeyPath) : Bool := r.frozen.any (·.isPrefixOf path)

def isDeclared (r : Reserved) (path : KeyPath) : Bool := r.declared.contains path

def freeze (r : Reserved) (path : KeyPath) : Reserved := { r with frozen := path :: r.frozen }

def declare (r : Reserved) (path : KeyPath) : Reserved := { r with declared := path :: r.declared }

def postpone (r : Reserved) (path : KeyPath) : Reserved := { r with pending := path :: r.pending }

def settle (r : Reserved) : Reserved :=
  { r with declared := r.pending ++ r.declared, pending := [] }

/-- Gives the path and all that lies under it free. -/
def release (r : Reserved) (path : KeyPath) : Reserved :=
  { r with
    frozen := r.frozen.filter fun p => !path.isPrefixOf p
    declared := r.declared.filter fun p => !path.isPrefixOf p }

end Reserved

/-- A document as far as it has been read: its root table, what is reserved in it, and the header
under which entries are written. -/
structure Draft where
  root : Table
  reserved : Reserved
  header : KeyPath

namespace Draft

def empty : Draft := ⟨[], .none, []⟩

/-- A header in brackets. -/
def openTable (d : Draft) (path : KeyPath) : Option Draft := do
  if d.reserved.isDeclared path || d.reserved.isFrozen path then none
  let root ← changeAt true some path d.root
  return { root, reserved := d.reserved.declare path, header := path }

/-- A header in double brackets. -/
def openItem (d : Draft) (path : KeyPath) : Option Draft := do
  if d.reserved.isFrozen path then none
  let last ← path.getLast?
  let root ← changeAt true (addItem last) path.dropLast d.root
  return { root, reserved := (d.reserved.release path).declare path, header := path }

/-- Reserves the tables that a dotted key leads through, the outermost first. -/
def reserveOnWay (header : KeyPath) : KeyPath → Reserved → Option Reserved
  | [], r => some r
  | key :: path, r =>
    let here := header ++ [key]
    if r.isDeclared here then none else reserveOnWay here path (r.postpone here)

def isNested : Value → Bool
  | .table _ => true
  | .list _ => true
  | _ => false

def assign (d : Draft) (path : KeyPath) (value : Value) : Option Draft := do
  let last ← path.getLast?
  let parent := d.header ++ path.dropLast
  let reserved ← reserveOnWay d.header path.dropLast d.reserved
  if reserved.isFrozen parent then none
  let root ← changeAt true (addEntry last value) parent d.root
  let reserved := if isNested value then reserved.freeze (d.header ++ path) else reserved
  return { d with root, reserved }

end Draft

end PropertyLayers.Toml
