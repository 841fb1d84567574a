import Mathlib.Data.Finmap

/-! Values that `JSON.parse` makes, the property keys they turn into, and plain
objects used as tables, where the key `__proto__` is not like the others. -/
namespace NetGraphz

/-- A parsed JSON value. A number is kept as the text it converts to. -/
inductive JsValue where
  | null
  | bool (value : Bool)
  | num (text : String)
  | str (value : String)
  | arr (elements : List JsValue)
  | obj (fields : List (String × JsValue))

/-- What reading a property gives. `builtin` is a method of the language. -/
inductive Property where
  | undefined
  | json (value : JsValue)
  | builtin (name : String)

/-- What an assignment to `__proto__` makes of a value: it takes an object,
known by its own keys, or null, and ignores all else. -/
inductive Kind where
  | primitive
  | null
  | object (keys : List String)

namespace JsValue

mutual

/-- The text of a value as a property key; `none` is a `TypeError`, thrown when
the object's own `toString` is no function. -/
def toText : JsValue → Option String
  | .null => some "null"
  | .bool value => some (if value then "true" else "false")
  | .num text => some text
  | .str value => some value
  | .arr elements => (elementTexts elements).map (String.intercalate ",")
  | .obj fields =>
    if (fields.lookup "toString").isSome then none else some "[object Object]"

/-- The texts an array is joined from; null counts as the empty text. -/
def elementTexts : List JsValue → Option (List String)
  | [] => some []
  | .null :: rest => (elementTexts rest).map ("" :: ·)
  | element :: rest =>
    match toText element, elementTexts rest with
    | some text, some texts => some (text :: texts)
    | _, _ => none

end

/-- Reading a property; `none` is the `TypeError` that null throws. -/
def property (value : JsValue) (name : String) : Option Property :=
  match value with
  | .null => none
  | .obj fields => some ((fields.lookup name).elim .undefined .json)
  | .arr _ => some (if name = "values" then .builtin name else .undefined)
  | _ => some .undefined

def kind : JsValue → Kind
  | .null => .null
  | .obj fields => .object (fields.map Prod.fst)
  | .arr _ => .object []
  | _ => .primitive

end JsValue

namespace Property

/-- The property as a key. -/
def toText : Property → Option String
  | .undefined => some "undefined"
  | .json value => value.toText
  | .builtin name => some ("function " ++ name ++ "() { [native code] }")

def kind : Property → Kind
  | .undefined => .primitive
  | .json value => value.kind
  | .builtin _ => .object []

end Property

/-- What stands behind a table's own entries. -/
inductive Prototype (α : Type u) where
  | standard
  | null
  | object (value : α)

/-- An object made as `{}` and used as a table. -/
structure Table (α : Type u) where
  own : Finmap (fun _ : String => α) := ∅
  proto : Prototype α := .standard

namespace Table

/-- The properties every object has from `Object.prototype`. -/
def standardNames : List String :=
  ["__defineGetter__", "__defineSetter__", "__lookupGetter__", "__lookupSetter__", "__proto__",
    "constructor", "hasOwnProperty", "isPrototypeOf", "propertyIsEnumerable", "toLocaleString",
    "toString", "valueOf"]

/-- `key in table`. -/
def has (table : Table α) (kind : α → Kind) (key : String) : Bool :=
  (table.own.lookup key).isSome ||
    match table.proto with
    | .standard => standardNames.contains key
    | .null => false
    | .object value =>
      match kind value with
      | .object keys => keys.contains key || standardNames.contains key
      | _ => standardNames.contains key

/-- An assignment to this key reaches the setter of `Object.prototype`. -/
def setsProto (table : Table α) (kind : α → Kind) (key : String) : Bool :=
  key = "__proto__" && (table.own.lookup key).isNone &&
    match table.proto with
    | .standard => true
    | .null => false
    | .object value =>
      match kind value with
      | .object keys => !keys.contains key
      | _ => true

/-- `table[key] = value`. -/
def assign (table : Table α) (kind : α → Kind) (key : String) (value : α) : Table α :=
  if table.setsProto kind key then
    match kind value with
    | .primitive => table
    | .null => { table with proto := .null }
    | .object _ => { table with proto := .object value }
  else { table with own := table.own.insert key value }

/-- The table refers to the value. -/
def Holds (table : Table α) (value : α) : Prop :=
  (∃ key, table.own.lookup key = some value) ∨ table.proto = .object value

variable {table : Table α} {kind : α → Kind} {key : String} {value other : α}

/-- An assignment brings in nothing but the assigned value. -/
theorem holds_of_assign (holds : (table.assign kind key value).Holds other) :
    table.Holds other ∨ other = value := by
  unfold assign at holds
  split at holds
  · split at holds
    · exact Or.inl holds
    · rcases holds with ⟨key', found⟩ | found
      · exact Or.inl (Or.inl ⟨key', found⟩)
      · cases found
    · rcases holds with ⟨key', found⟩ | found
      · exact Or.inl (Or.inl ⟨key', found⟩)
      · cases found
        exact Or.inr rfl
  · rcases holds with ⟨key', found⟩ | found
    · by_cases same : key' = key
      · subst same
        rw [Finmap.lookup_insert, Option.some.injEq] at found
        exact Or.inr found.symm
      · rw [Finmap.lookup_insert_of_ne _ same] at found
        exact Or.inl (Or.inl ⟨key', found⟩)
    · exact Or.inl (Or.inr found)

/-- An object is referred to once it is assigned, whatever the key. -/
theorem holds_assign (object : kind value = .object keys) :
    (table.assign kind key value).Holds value := by
  unfold assign
  split
  · rw [object]
    exact Or.inr rfl
  · exact Or.inl ⟨key, Finmap.lookup_insert _⟩

end Table

end NetGraphz
