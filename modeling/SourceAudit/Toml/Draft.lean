import SourceAudit.Toml.Basic

/-!
# Tables in the making

A document defines its tables in pieces: by headers, by dotted keys, and in passing, when a header
names a table inside one that has not been defined. What may be added to a table depends on how it
came to be, so a draft remembers two things of it. It is **implicit** until a header defines it, and
it is **dotted** if dotted keys made it.

A table is defined once: a header may define an implicit table that is not dotted, which then comes
last in the table it is in, and dotted keys may only extend tables that dotted keys made. A key is
given once. An array of tables grows by headers, and what follows such a header belongs to its last
table.
-/

namespace SourceAudit

namespace Toml

mutual

/-- A table in the making. -/
inductive Draft where
  | mk (implicit dotted : Bool) (entries : List (String × Item))

/-- What a key of a table stands for. -/
inductive Item where
  | value (value : Value)
  | table (draft : Draft)
  | tables (drafts : List Draft)

end

namespace Draft

/-- A table that a header defines, with nothing in it yet. -/
def fresh : Draft := .mk false false []

/-- Whether no header has defined the table. -/
def implicit : Draft → Bool
  | .mk implicit _ _ => implicit

/-- Whether dotted keys made the table. -/
def dotted : Draft → Bool
  | .mk _ dotted _ => dotted

/-- What a key of the table stands for. -/
def item? (key : String) : Draft → Option Item
  | .mk _ _ entries => entries.lookup key

/-- Lets a key stand for `item`. -/
def put (key : String) (item : Item) : Draft → Draft
  | .mk implicit dotted entries =>
    if entries.any (·.1 == key) then
      .mk implicit dotted (entries.map fun entry => if entry.1 == key then (key, item) else entry)
    else .mk implicit dotted (entries ++ [(key, item)])

/-- Takes a key out of the table. -/
def erase (key : String) : Draft → Draft
  | .mk implicit dotted entries => .mk implicit dotted (entries.filter (·.1 != key))

end Draft

/-- Changes the last element of a list. -/
def changeLast (change : α → Option α) : List α → Option (List α)
  | [] => none
  | [last] => (change last).map ([·])
  | first :: rest => (changeLast change rest).map (first :: ·)

namespace Draft

/-- Changes the table that `path` leads to, making tables on the way. A path of dotted keys may
only lead through tables that no header has defined. -/
def descend (dotted : Bool) (change : Draft → Option Draft) :
    List String → Draft → Option Draft
  | [], draft => change draft
  | key :: path, draft =>
    match draft.item? key with
    | none => (descend dotted change path (.mk true dotted [])).map (draft.put key <| .table ·)
    | some (.value _) => none
    | some (.table inner) =>
      if dotted && !inner.implicit then none
      else (descend dotted change path inner).map (draft.put key <| .table ·)
    | some (.tables inner) =>
      (changeLast (descend dotted change path) inner).map (draft.put key <| .tables ·)

/-- Gives a key its value. The table is one that dotted keys made if and only if the key is
dotted. -/
def give (viaDots : Bool) (key : String) (value : Value) (draft : Draft) : Option Draft :=
  if draft.dotted != viaDots then none
  else if (draft.item? key).isSome then none
  else some (draft.put key (.value value))

/-- Gives a dotted key its value. -/
def assign (keys : List String) (value : Value) (draft : Draft) : Option Draft :=
  match keys.getLast? with
  | none => none
  | some key =>
    let path := keys.dropLast
    descend true (give (!path.isEmpty) key value) path draft

/-- Defines the table `key` by a header. The table comes last, also if it has been mentioned. -/
def define (key : String) (draft : Draft) : Option Draft :=
  match draft.item? key with
  | none => some (draft.put key (.table fresh))
  | some (.table (.mk true false entries)) =>
    some ((draft.erase key).put key (.table (.mk false false entries)))
  | some _ => none

/-- Adds a table to the array of tables `key` by a header. -/
def defineNext (key : String) (draft : Draft) : Option Draft :=
  match draft.item? key with
  | none => some (draft.put key (.tables [fresh]))
  | some (.tables drafts) => some (draft.put key (.tables (drafts ++ [fresh])))
  | some _ => none

end Draft

mutual

/-- The finished table. -/
def Draft.finish : Draft → Table
  | .mk _ _ entries => finishEntries entries

/-- The finished value of a key. -/
def Item.finish : Item → Value
  | .value value => value
  | .table draft => .table draft.finish
  | .tables drafts => .array (finishAll drafts)

def finishAll : List Draft → List Value
  | [] => []
  | draft :: drafts => .table draft.finish :: finishAll drafts

def finishEntries : List (String × Item) → Table
  | [] => []
  | (key, item) :: entries => (key, item.finish) :: finishEntries entries

end

end Toml

end SourceAudit
