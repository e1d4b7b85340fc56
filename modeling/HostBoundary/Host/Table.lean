/-!
# Tables

What the host is configured to answer is kept in tables.  A table holds one
entry for each key, in the order in which the keys were first entered; entering
a key again replaces its value in place.  An entry can be taken out again.
-/

namespace HostBoundary

/-- A finite map that remembers the order of its keys. -/
structure Table (κ : Type) (β : Type) where
  /-- The entries, in order. -/
  entries : List (κ × β)
deriving Repr

namespace Table

variable {κ β : Type} [DecidableEq κ]

/-- The table without entries. -/
def empty : Table κ β := ⟨[]⟩

instance : Inhabited (Table κ β) := ⟨empty⟩

/-- The value of a key in a list of entries. -/
def findIn (key : κ) : List (κ × β) → Option β
  | [] => none
  | (k, value) :: rest => if k = key then some value else findIn key rest

/-- Sets the value of a key in a list of entries. -/
def insertIn (key : κ) (value : β) : List (κ × β) → List (κ × β)
  | [] => [(key, value)]
  | (k, old) :: rest =>
    if k = key then (key, value) :: rest else (k, old) :: insertIn key value rest

/-- Takes a key out of a list of entries. -/
def eraseIn (key : κ) (entries : List (κ × β)) : List (κ × β) :=
  entries.filter fun entry => entry.1 ≠ key

/-- The value of a key. -/
def find? (table : Table κ β) (key : κ) : Option β := findIn key table.entries

/-- Whether a key has a value. -/
def contains (table : Table κ β) (key : κ) : Bool := (table.find? key).isSome

/-- Sets the value of a key. -/
def insert (table : Table κ β) (key : κ) (value : β) : Table κ β :=
  ⟨insertIn key value table.entries⟩

/-- Takes a key out. -/
def erase (table : Table κ β) (key : κ) : Table κ β := ⟨eraseIn key table.entries⟩

/-- The values, in order. -/
def values (table : Table κ β) : List β := table.entries.map (·.2)

@[simp] theorem find?_empty (key : κ) : (empty : Table κ β).find? key = none := rfl

@[simp] theorem find?_insert_self (table : Table κ β) (key : κ) (value : β) :
    (table.insert key value).find? key = some value := by
  obtain ⟨entries⟩ := table
  simp only [insert, find?]
  induction entries with
  | nil => simp [insertIn, findIn]
  | cons entry rest ih =>
    by_cases same : entry.1 = key <;> simp [insertIn, findIn, same, ih]

theorem find?_insert_of_ne (table : Table κ β) {key other : κ} (ne : other ≠ key) (value : β) :
    (table.insert key value).find? other = table.find? other := by
  obtain ⟨entries⟩ := table
  simp only [insert, find?]
  induction entries with
  | nil => simp [insertIn, findIn, ne.symm]
  | cons entry rest ih =>
    by_cases same : entry.1 = key
    · simp [insertIn, findIn, same, ne.symm]
    · simp [insertIn, findIn, same, ih]

/-- A lookup under the key that was set finds its value; the others are as they were. -/
theorem find?_insert (table : Table κ β) (key other : κ) (value : β) :
    (table.insert key value).find? other
      = if key = other then some value else table.find? other := by
  split
  · next same => rw [same, find?_insert_self]
  · next ne => exact table.find?_insert_of_ne (Ne.symm ne) value

theorem eraseIn_cons_self {key : κ} {value : β} {rest : List (κ × β)} :
    eraseIn key ((key, value) :: rest) = eraseIn key rest :=
  List.filter_cons_of_neg (by simp)

theorem eraseIn_cons_of_ne {key other : κ} (ne : other ≠ key) {value : β}
    {rest : List (κ × β)} :
    eraseIn key ((other, value) :: rest) = (other, value) :: eraseIn key rest :=
  List.filter_cons_of_pos (by simpa using ne)

/-- A lookup under the key that was taken out finds nothing; the others are as they were. -/
theorem find?_erase (table : Table κ β) (key other : κ) :
    (table.erase key).find? other = if key = other then none else table.find? other := by
  obtain ⟨entries⟩ := table
  simp only [erase, find?]
  induction entries with
  | nil => exact (ite_self _).symm
  | cons entry rest ih =>
    obtain ⟨k, value⟩ := entry
    by_cases taken : k = key
    · rw [taken, eraseIn_cons_self, ih, findIn]
      split <;> rfl
    · rw [eraseIn_cons_of_ne taken, findIn, ih, findIn]
      by_cases here : k = other
      · rw [if_pos here, if_neg (here ▸ Ne.symm taken), if_pos here]
      · rw [if_neg here, if_neg here]

/-- What a lookup finds stands in the table. -/
theorem mem_of_find? {table : Table κ β} {key : κ} {value : β}
    (found : table.find? key = some value) : (key, value) ∈ table.entries := by
  obtain ⟨entries⟩ := table
  simp only [find?] at found ⊢
  induction entries with
  | nil => cases found
  | cons entry rest ih =>
    obtain ⟨k, old⟩ := entry
    rw [findIn] at found
    split at found
    · next same =>
      cases found
      exact same ▸ List.mem_cons_self
    · exact List.mem_cons_of_mem _ (ih found)

/-! ## Distinct keys -/

/-- No two entries share a key. -/
def Distinct (table : Table κ β) : Prop := (table.entries.map (·.1)).Nodup

omit [DecidableEq κ] in
theorem distinct_empty : (empty : Table κ β).Distinct := List.nodup_nil

/-- A key is entered at the end, unless it is there already. -/
theorem keys_insertIn (key : κ) (value : β) (entries : List (κ × β)) :
    (insertIn key value entries).map (·.1)
      = if key ∈ entries.map (·.1) then entries.map (·.1) else entries.map (·.1) ++ [key] := by
  induction entries with
  | nil => rfl
  | cons entry rest ih =>
    obtain ⟨k, old⟩ := entry
    by_cases same : k = key
    · simp [insertIn, same]
    · rw [insertIn, if_neg same, List.map_cons, ih, List.map_cons]
      by_cases known : key ∈ rest.map (·.1)
      · rw [if_pos known, if_pos (List.mem_cons_of_mem _ known)]
      · rw [if_neg known, if_neg (by simpa [Ne.symm same] using known)]
        rfl

theorem Distinct.insert {table : Table κ β} (distinct : table.Distinct) (key : κ) (value : β) :
    (table.insert key value).Distinct := by
  show ((insertIn key value table.entries).map (·.1)).Nodup
  rw [keys_insertIn]
  split
  · exact distinct
  · next unknown =>
    refine List.nodup_append.mpr ⟨distinct,
      List.nodup_cons.mpr ⟨List.not_mem_nil, List.nodup_nil⟩, ?_⟩
    rintro k known _ isKey rfl
    exact unknown (List.mem_singleton.mp isKey ▸ known)

theorem Distinct.erase {table : Table κ β} (distinct : table.Distinct) (key : κ) :
    (table.erase key).Distinct :=
  distinct.sublist (List.filter_sublist.map _)

/-- Under distinct keys every entry is found, wherever it stands. -/
theorem Distinct.find?_of_mem {table : Table κ β} (distinct : table.Distinct) {key : κ}
    {value : β} (mem : (key, value) ∈ table.entries) : table.find? key = some value := by
  obtain ⟨entries⟩ := table
  simp only [find?, Distinct] at distinct mem ⊢
  induction entries with
  | nil => cases mem
  | cons entry rest ih =>
    obtain ⟨k, old⟩ := entry
    obtain ⟨fresh, distinct⟩ := List.nodup_cons.mp distinct
    rcases List.mem_cons.mp mem with here | later
    · cases here
      exact if_pos rfl
    · have other : k ≠ key := by
        rintro rfl
        exact fresh (List.mem_map.mpr ⟨_, later, rfl⟩)
      rw [findIn, if_neg other]
      exact ih distinct later

/-- The values are what can be found. -/
theorem Distinct.mem_values_iff {table : Table κ β} (distinct : table.Distinct) {value : β} :
    value ∈ table.values ↔ ∃ key, table.find? key = some value := by
  constructor
  · intro mem
    obtain ⟨⟨key, _⟩, entry, rfl⟩ := List.mem_map.mp mem
    exact ⟨key, distinct.find?_of_mem entry⟩
  · rintro ⟨key, found⟩
    exact List.mem_map.mpr ⟨_, mem_of_find? found, rfl⟩

end Table

end HostBoundary
