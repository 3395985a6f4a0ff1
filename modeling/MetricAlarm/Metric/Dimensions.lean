/-!
# Dimensions of a metric

A finite map from dimension names to values, kept as a list in increasing order of name (by code
point) in which each name stands once. Main statement: `insertEntry_sorted`, which lets every
`Dimensions` carry the order as a field, so that two maps with the same entries are equal.
-/

namespace MetricAlarm

/-- An entry of a dimension map: name and value. -/
abbrev Dimension := String × String

/-- Names strictly increase along the list. -/
def SortedByName (es : List Dimension) : Prop := es.Pairwise (fun a b => a.1 < b.1)

instance (es : List Dimension) : Decidable (SortedByName es) :=
  inferInstanceAs (Decidable (es.Pairwise _))

/-- Put a value under a name; a value already there is replaced. -/
def insertEntry (name value : String) : List Dimension → List Dimension
  | [] => [(name, value)]
  | e :: es =>
    if name < e.1 then (name, value) :: e :: es
    else if name = e.1 then (name, value) :: es
    else e :: insertEntry name value es

theorem mem_insertEntry {name value : String} {es : List Dimension} {d : Dimension}
    (h : d ∈ insertEntry name value es) : d = (name, value) ∨ d ∈ es := by
  induction es with
  | nil => simpa [insertEntry] using h
  | cons e es ih =>
    simp only [insertEntry] at h
    split at h
    · simpa using h
    · split at h
      · rcases List.mem_cons.1 h with h | h
        · exact Or.inl h
        · exact Or.inr (List.mem_cons_of_mem _ h)
      · rcases List.mem_cons.1 h with h | h
        · exact Or.inr (h ▸ List.mem_cons_self)
        · exact (ih h).imp_right (List.mem_cons_of_mem _)

theorem insertEntry_sorted (name value : String) {es : List Dimension} (h : SortedByName es) :
    SortedByName (insertEntry name value es) := by
  induction es with
  | nil => simp [insertEntry, SortedByName]
  | cons e es ih =>
    obtain ⟨he, hes⟩ := List.pairwise_cons.1 h
    simp only [insertEntry]
    split
    · next hlt =>
      refine List.pairwise_cons.2 ⟨fun d hd => ?_, h⟩
      rcases List.mem_cons.1 hd with rfl | hd
      · exact hlt
      · exact String.lt_trans hlt (he d hd)
    · next hge =>
      split
      · next heq => exact List.pairwise_cons.2 ⟨fun d hd => heq ▸ he d hd, hes⟩
      · next hne =>
        refine List.pairwise_cons.2 ⟨fun d hd => ?_, ih hes⟩
        rcases mem_insertEntry hd with rfl | hd
        · have hlt : ¬ name ≤ e.1 := fun hle => hne (String.le_antisymm hle (String.not_lt.1 hge))
          exact Decidable.of_not_not fun h' => hlt (String.not_lt.1 h')
        · exact he d hd

structure Dimensions where
  entries : List Dimension
  sorted : SortedByName entries
  deriving DecidableEq

namespace Dimensions

def empty : Dimensions := ⟨[], List.Pairwise.nil⟩

def insert (d : Dimensions) (name value : String) : Dimensions :=
  ⟨insertEntry name value d.entries, insertEntry_sorted name value d.sorted⟩

/-- The map of a list of entries; of several values under one name the last counts. -/
def ofList (es : List Dimension) : Dimensions := es.foldl (fun d e => d.insert e.1 e.2) empty

def get? (d : Dimensions) (name : String) : Option String := d.entries.lookup name

def contains (d : Dimensions) (name : String) : Bool := (d.get? name).isSome

theorem nodup_names (d : Dimensions) : (d.entries.map Prod.fst).Nodup := by
  refine List.Pairwise.map _ (fun a b hab => ?_) d.sorted
  exact fun heq => String.lt_irrefl a.1 (by rw [heq] at hab ⊢; exact hab)

end Dimensions

/-- Lexicographic order of entry lists: names and values alternate as they are written. -/
def compareEntries : List Dimension → List Dimension → Ordering
  | [], [] => .eq
  | [], _ :: _ => .lt
  | _ :: _, [] => .gt
  | a :: as, b :: bs =>
    (compare a.1 b.1).then ((compare a.2 b.2).then (compareEntries as bs))

end MetricAlarm
