/-!
# Data values

The values that settings files, the environment and requests are made of. A table keeps its entries
in the order in which their names first occur; a name that is given again takes the later value. Of two tables
the later one can be merged into the earlier one. Main statement: `lookup_merge`, merging leaves a
name alone that the later table does not have.
-/

namespace MetricAlarm.Data

inductive Value
  | null
  | bool (b : Bool)
  | integer (n : Int)
  | decimal (x : Float)
  | text (s : String)
  | list (items : List Value)
  | table (entries : List (String × Value))

/-- An entry of a table. -/
abbrev Entry := String × Value

/-- Give a name a value. -/
def put (name : String) (v : Value) : List Entry → List Entry
  | [] => [(name, v)]
  | e :: es => if e.1 = name then (name, v) :: es else e :: put name v es

/-- The entries of a table as they are written down. -/
def entriesOf (written : List Entry) : List Entry :=
  written.foldl (fun es e => put e.1 e.2 es) []

theorem lookup_put (name : String) (v : Value) (es : List Entry) :
    (put name v es).lookup name = some v := by
  induction es with
  | nil => simp [put]
  | cons e es ih =>
    obtain ⟨key, w⟩ := e
    simp only [put]
    split
    · simp
    · next h =>
      have : (name == key) = false := by simpa using fun h' => h h'.symm
      simp [List.lookup_cons, this, ih]

theorem lookup_put_of_ne {name key : String} (v : Value) (es : List Entry) (h : key ≠ name) :
    (put name v es).lookup key = es.lookup key := by
  have hb : (key == name) = false := by simpa using h
  induction es with
  | nil => simp [put, List.lookup_cons, hb]
  | cons e es ih =>
    obtain ⟨first, w⟩ := e
    simp only [put]
    split
    · next hf =>
      subst hf
      simp [List.lookup_cons, hb]
    · simp [List.lookup_cons, ih]

/-! ## Nesting and merging -/

/-- A value below the names of a path. -/
def nested (path : List String) (v : Value) : Value :=
  path.foldr (fun name v => .table [(name, v)]) v

mutual

/-- What a later value leaves of an earlier one: tables are merged, and all else is replaced. -/
def Value.updated (earlier : Value) : Value → Value
  | .table later =>
    match earlier with
    | .table es => .table (merge es later)
    | _ => .table later
  | later => later

/-- Later entries over earlier ones. -/
def merge (earlier : List Entry) : List Entry → List Entry
  | [] => earlier
  | (name, v) :: es =>
    match earlier.lookup name with
    | some w => merge (put name (Value.updated w v) earlier) es
    | none => merge (put name v earlier) es

end

theorem lookup_merge {name : String} :
    ∀ {later earlier : List Entry}, later.lookup name = none →
      (merge earlier later).lookup name = earlier.lookup name
  | [], _, _ => by simp [merge]
  | (key, v) :: later, earlier, h => by
    have hb : (name == key) = false := by
      cases hk : name == key
      · rfl
      · simp [List.lookup_cons, hk] at h
    have hn : name ≠ key := by simpa using hb
    have hl : later.lookup name = none := by simpa [List.lookup_cons, hb] using h
    rw [merge]
    split <;> rw [lookup_merge hl, lookup_put_of_ne _ _ hn]

/-- The integers that data can hold: those of sixty-four bits, with or without sign. -/
def isWide (n : Int) : Bool := -9223372036854775808 ≤ n && n < UInt64.size

end MetricAlarm.Data
