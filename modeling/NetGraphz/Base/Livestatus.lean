/-! Queries of MK Livestatus: the rows of a table that its filter lines select,
each with the columns that are asked for. -/
namespace NetGraphz.Livestatus

/-- A row as its readers give it; a reading fails with an error. -/
structure Record where
  getString : String → Except String String
  getInt : String → Except String Int64
  getBool : String → Except String Bool

structure Response where
  records : List Record

/-- A header line below the columns. -/
inductive Header where
  /-- `Filter: column operator value` -/
  | filter (rule : String)
  /-- `Or: n` -/
  | or (n : Nat)

structure Query where
  table : String
  columns : List String := []
  headers : List Header := []

/-- `Query.Columns`. -/
def Query.withColumns (q : Query) (names : List String) : Query := { q with columns := names }

/-- `Query.Filter`. -/
def Query.filter (q : Query) (rule : String) : Query :=
  { q with headers := q.headers ++ [.filter rule] }

/-- `Query.Or`. -/
def Query.or (q : Query) (n : Nat) : Query := { q with headers := q.headers ++ [.or n] }

/-- A rule's parts: up to the first blank, up to the second, and the rest. -/
def ruleParts (rule : List Char) : List Char × List Char × List Char :=
  let column := rule.takeWhile (· ≠ ' ')
  let rest := (rule.dropWhile (· ≠ ' ')).drop 1
  (column, rest.takeWhile (· ≠ ' '), (rest.dropWhile (· ≠ ' ')).drop 1)

/-- Whether a text column of a row equals the value of a rule. -/
def holds (rule : String) (row : Record) : Bool :=
  let (column, operator, value) := ruleParts rule.toList
  match row.getString (String.ofList column) with
  | .ok text => operator = ['='] ∧ text = String.ofList value
  | .error _ => false

/-- A header line works on the stack of conditions above it. -/
def evalHeader (row : Record) (stack : List Bool) : Header → List Bool
  | .filter rule => holds rule row :: stack
  | .or n => (stack.take n).any id :: stack.drop n

/-- A row is selected if all the conditions left on the stack hold. -/
def selects (headers : List Header) (row : Record) : Bool :=
  (headers.foldl (evalHeader row) []).all id

/-- What a reader gives for a column that was not asked for. -/
def missing {α : Type} (column : String) : Except String α := .error ("no column " ++ column)

/-- A row as a response offers it. -/
def offer (columns : List String) (row : Record) : Record where
  getString column := if column ∈ columns then row.getString column else missing column
  getInt column := if column ∈ columns then row.getInt column else missing column
  getBool column := if column ∈ columns then row.getBool column else missing column

/-- The response to a query of a table with these rows. -/
def answer (rows : List Record) (q : Query) : Response :=
  ⟨(rows.filter (selects q.headers)).map (offer q.columns)⟩

/-! ## Queries that ask for one of several texts -/

variable {row : Record} {column value text : String}

/-- `column = value`. -/
def equals (column value : String) : String := column ++ " = " ++ value

theorem takeWhile_blank {word : List Char} (clear : ' ' ∉ word) (rest : List Char) :
    (word ++ ' ' :: rest).takeWhile (· ≠ ' ') = word ∧
      (word ++ ' ' :: rest).dropWhile (· ≠ ' ') = ' ' :: rest := by
  have inside : ∀ c ∈ word, decide (c ≠ ' ') = true :=
    fun c member => decide_eq_true fun same => clear (same ▸ member)
  constructor
  · rw [List.takeWhile_append_of_pos inside]
    simp
  · rw [List.dropWhile_append_of_pos inside]
    simp

theorem ruleParts_equals (clear : ' ' ∉ column.toList) :
    ruleParts (equals column value).toList = (column.toList, ['='], value.toList) := by
  have shape : (equals column value).toList =
      column.toList ++ ' ' :: (['='] ++ ' ' :: value.toList) := by
    simp [equals]
  obtain ⟨first, rest⟩ := takeWhile_blank clear (['='] ++ ' ' :: value.toList)
  have noBlank : ' ' ∉ ['='] := by decide
  obtain ⟨second, last⟩ := takeWhile_blank noBlank value.toList
  simp only [ruleParts, shape, first, rest, List.drop_one, List.tail_cons, second, last]

/-- Such a rule holds of the rows that have this text in the column. -/
theorem holds_equals (clear : ' ' ∉ column.toList) :
    holds (equals column value) row ↔ row.getString column = .ok value := by
  simp only [holds, ruleParts_equals clear, String.ofList_toList]
  cases row.getString column with
  | error err => simp
  | ok text => simp [eq_comm]

theorem foldl_filters (rules : List String) (stack : List Bool) :
    (rules.map Header.filter).foldl (evalHeader row) stack =
      (rules.map fun rule => holds rule row).reverse ++ stack := by
  induction rules generalizing stack with
  | nil => rfl
  | cons rule rules ih => simp [evalHeader, ih]

/-- Filters joined by an `Or` of all of them select the rows that one of them
holds of; one filter needs no `Or`. -/
theorem selects_filters (rules : List String) (filled : rules ≠ []) :
    selects (rules.map .filter ++ if 1 < rules.length then [.or rules.length] else []) row ↔
      ∃ rule ∈ rules, holds rule row := by
  rw [selects, List.foldl_append, foldl_filters, List.append_nil]
  split
  · have whole : (rules.map fun rule => holds rule row).reverse.length = rules.length := by simp
    simp only [List.foldl_cons, List.foldl_nil, evalHeader]
    rw [← whole, List.take_length, List.drop_length]
    simp
  · rename_i short
    obtain ⟨rule, rest, rfl⟩ := List.exists_cons_of_ne_nil filled
    have single : rest = [] := by
      rw [List.length_cons] at short
      exact List.length_eq_zero_iff.mp (by omega)
    subst single
    simp

end NetGraphz.Livestatus
