/-!
# Named fields

Fields are kept in the order in which their names first came up. Writing a
field that is there replaces its value and keeps its place.
-/

namespace RecordAlgebra

abbrev Fields (α : Type) := List (String × α)

namespace Fields

variable {α β : Type}

def get? (fields : Fields α) (name : String) : Option α := List.lookup name fields

def contains (fields : Fields α) (name : String) : Bool := fields.any fun field => field.1 == name

def names (fields : Fields α) : List String := fields.map Prod.fst

def insert (name : String) (value : α) : Fields α → Fields α
  | [] => [(name, value)]
  | (other, old) :: rest =>
      if other = name then (name, value) :: rest else (other, old) :: insert name value rest

def insertAll (fields additions : Fields α) : Fields α :=
  additions.foldl (fun fields (name, value) => insert name value fields) fields

def ofList (entries : List (String × α)) : Fields α := insertAll [] entries

@[simp] theorem insert_nil (name : String) (value : α) : insert name value [] = [(name, value)] :=
  rfl

theorem get?_insert_self (name : String) (value : α) (fields : Fields α) :
    (insert name value fields).get? name = some value := by
  induction fields with
  | nil => simp [get?]
  | cons field rest ih =>
      obtain ⟨other, old⟩ := field
      by_cases h : other = name
      · simp [insert, h, get?]
      · have hne : (name == other) = false := by simpa using fun h' => h h'.symm
        simpa [insert, h, get?, List.lookup_cons, hne] using ih

theorem get?_insert_of_ne {name other : String} (h : other ≠ name) (value : α)
    (fields : Fields α) : (insert name value fields).get? other = fields.get? other := by
  induction fields with
  | nil =>
      have hne : (other == name) = false := by simpa using h
      simp [get?, List.lookup_cons, hne]
  | cons field rest ih =>
      obtain ⟨first, old⟩ := field
      by_cases hf : first = name
      · subst hf
        have hne : (other == first) = false := by simpa using h
        simp [insert, get?, List.lookup_cons, hne]
      · simp only [insert, hf, if_false, get?, List.lookup_cons] at ih ⊢
        cases other == first <;> simp_all

theorem names_insert_of_mem {name : String} (value : α) {fields : Fields α}
    (h : name ∈ fields.names) : (insert name value fields).names = fields.names := by
  induction fields with
  | nil => simp [names] at h
  | cons field rest ih =>
      obtain ⟨first, old⟩ := field
      by_cases hf : first = name
      · simp [insert, hf, names]
      · have hr : name ∈ rest.map Prod.fst := by
          simpa [names, Ne.symm hf] using h
        simpa [insert, hf, names] using ih hr

theorem names_insert_of_not_mem {name : String} (value : α) {fields : Fields α}
    (h : name ∉ fields.names) : (insert name value fields).names = fields.names ++ [name] := by
  induction fields with
  | nil => rfl
  | cons field rest ih =>
      obtain ⟨first, old⟩ := field
      have hf : first ≠ name := by
        rintro rfl
        simp [names] at h
      have hr : name ∉ rest.map Prod.fst := by
        intro hr
        exact h (by simp only [names, List.map_cons, List.mem_cons]; exact Or.inr hr)
      simpa [insert, hf, names] using ih hr

theorem nodup_names_insert {fields : Fields α} (h : fields.names.Nodup) (name : String)
    (value : α) : (insert name value fields).names.Nodup := by
  by_cases hmem : name ∈ fields.names
  · rw [names_insert_of_mem value hmem]
    exact h
  · rw [names_insert_of_not_mem value hmem, List.nodup_append]
    refine ⟨h, by simp, ?_⟩
    rintro other hother _ hname rfl
    rw [List.mem_singleton] at hname
    exact hmem (hname ▸ hother)

theorem nodup_names_insertAll {fields : Fields α} (h : fields.names.Nodup)
    (additions : Fields α) : (fields.insertAll additions).names.Nodup := by
  induction additions generalizing fields with
  | nil => exact h
  | cons addition rest ih => exact ih (nodup_names_insert h _ _)

theorem nodup_names_ofList (entries : List (String × α)) : (ofList entries).names.Nodup :=
  nodup_names_insertAll (by simp [names]) entries

theorem get?_eq_none_of_not_mem {fields : Fields α} {name : String}
    (h : name ∉ fields.names) : fields.get? name = none := by
  induction fields with
  | nil => rfl
  | cons field rest ih =>
      obtain ⟨first, value⟩ := field
      simp only [names, List.map_cons, List.mem_cons, not_or] at h ih
      have hne : (name == first) = false := by simpa using h.1
      simp only [get?, List.lookup_cons, hne] at ih ⊢
      exact ih h.2

theorem get?_insertAll {fields additions : Fields α} (h : additions.names.Nodup)
    (name : String) :
    (fields.insertAll additions).get? name = (additions.get? name).or (fields.get? name) := by
  induction additions generalizing fields with
  | nil => rfl
  | cons addition rest ih =>
      obtain ⟨first, value⟩ := addition
      simp only [names, List.map_cons, List.nodup_cons] at h ih
      have hrest := @ih (insert first value fields) h.2
      rw [insertAll, List.foldl_cons]
      refine hrest.trans ?_
      by_cases hname : name = first
      · subst hname
        rw [get?_eq_none_of_not_mem h.1, get?_insert_self]
        simp [get?]
      · have hne : (name == first) = false := by simpa using hname
        rw [get?_insert_of_ne hname]
        simp only [get?, List.lookup_cons, hne]

theorem get?_ofList {entries : Fields α} (h : entries.names.Nodup) (name : String) :
    (ofList entries).get? name = entries.get? name := by
  rw [ofList, get?_insertAll h]
  cases entries.get? name <;> rfl

theorem names_insertAll {fields additions : Fields α} {name : String} :
    name ∈ (fields.insertAll additions).names ↔ name ∈ fields.names ∨ name ∈ additions.names := by
  induction additions generalizing fields with
  | nil => simp [insertAll, names]
  | cons addition rest ih =>
      obtain ⟨first, value⟩ := addition
      rw [insertAll, List.foldl_cons]
      refine (@ih (insert first value fields)).trans ?_
      have hinsert : name ∈ (insert first value fields).names ↔
          name ∈ fields.names ∨ name = first := by
        by_cases hfirst : first ∈ fields.names
        · rw [names_insert_of_mem value hfirst]
          exact ⟨.inl, fun h => h.elim id fun h => h ▸ hfirst⟩
        · rw [names_insert_of_not_mem value hfirst, List.mem_append, List.mem_singleton]
      rw [hinsert, or_assoc]
      simp [names]

theorem get?_eq_some_of_mem {fields : Fields α} (h : fields.names.Nodup) {name : String}
    {value : α} (hmem : (name, value) ∈ fields) : fields.get? name = some value := by
  induction fields with
  | nil => cases hmem
  | cons field rest ih =>
      obtain ⟨first, old⟩ := field
      simp only [names, List.map_cons, List.nodup_cons] at h
      rcases List.mem_cons.1 hmem with hfirst | hrest
      · cases hfirst
        simp [get?]
      · have hne : (name == first) = false := by
          refine beq_eq_false_iff_ne.2 ?_
          rintro rfl
          exact h.1 (List.mem_map_of_mem hrest)
        simpa [get?, List.lookup_cons, hne] using ih h.2 hrest

theorem mem_of_get? {fields : Fields α} {name : String} {value : α}
    (h : fields.get? name = some value) : (name, value) ∈ fields := by
  induction fields with
  | nil => cases h
  | cons field rest ih =>
      obtain ⟨first, old⟩ := field
      simp only [get?, List.lookup_cons] at h ih
      cases hname : name == first
      · rw [hname] at h
        exact List.mem_cons_of_mem _ (ih h)
      · rw [hname] at h
        cases h
        rw [beq_iff_eq.1 hname]
        exact List.mem_cons_self

theorem mem_of_get?_eq_some {fields : Fields α} {name : String} {value : α}
    (h : fields.get? name = some value) : value ∈ fields.map Prod.snd :=
  List.mem_map.2 ⟨_, mem_of_get? h, rfl⟩

theorem mem_names_of_get? {fields : Fields α} {name : String} {value : α}
    (h : fields.get? name = some value) : name ∈ fields.names :=
  List.mem_map.2 ⟨_, mem_of_get? h, rfl⟩

theorem exists_get?_of_mem_names {fields : Fields α} {name : String} (h : name ∈ fields.names) :
    ∃ value, fields.get? name = some value := by
  apply Option.isSome_iff_exists.1
  rw [get?, List.lookup_isSome_iff]
  obtain ⟨field, hfield, hname⟩ := List.mem_map.1 h
  exact ⟨field, hfield, by simp [hname]⟩

theorem contains_eq_isSome_get? (fields : Fields α) (name : String) :
    fields.contains name = (fields.get? name).isSome := by
  rw [Bool.eq_iff_iff, contains, List.any_eq_true, get?, List.lookup_isSome_iff]
  constructor
  · rintro ⟨field, hfield, hname⟩
    exact ⟨field, hfield, BEq.symm hname⟩
  · rintro ⟨field, hfield, hname⟩
    exact ⟨field, hfield, BEq.symm hname⟩

/-- Writing what is there changes nothing. -/
theorem insert_of_get? {fields : Fields α} {name : String} {value : α}
    (h : fields.get? name = some value) : insert name value fields = fields := by
  induction fields with
  | nil => cases h
  | cons field rest ih =>
      obtain ⟨first, old⟩ := field
      by_cases hname : first = name
      · subst hname
        have hvalue : old = value := by simpa [get?] using h
        simp [insert, hvalue]
      · have hne : (name == first) = false := by simpa using Ne.symm hname
        have hrest : get? rest name = some value := by simpa [get?, List.lookup_cons, hne] using h
        rw [insert, if_neg hname, ih hrest]

/-- There is only one field of a name. -/
theorem filter_ne_eq_eraseIdx {fields : Fields α} (h : fields.names.Nodup) {i : Nat}
    {name : String} {value : α} (hfield : fields[i]? = some (name, value)) :
    (fields.filter fun field => field.1 != name) = fields.eraseIdx i := by
  induction fields generalizing i with
  | nil => cases hfield
  | cons field rest ih =>
      rw [names, List.map_cons, List.nodup_cons] at h
      cases i with
      | zero =>
          have hfirst : field = (name, value) := by simpa using hfield
          subst hfirst
          have hothers : ∀ other ∈ rest, (other.1 != name) = true := by
            intro other hother
            have hmem : other.1 ∈ rest.map Prod.fst := List.mem_map_of_mem hother
            rw [bne_iff_ne]
            intro hname
            rw [hname] at hmem
            exact h.1 hmem
          rw [List.filter_cons_of_neg (by simp), List.filter_eq_self.2 hothers]
          rfl
      | succ i =>
          have hrest : rest[i]? = some (name, value) := by simpa using hfield
          have hne : (field.1 != name) = true := by
            rw [bne_iff_ne]
            rintro hname
            apply h.1
            rw [hname]
            exact List.mem_map_of_mem (f := Prod.fst) (List.mem_of_getElem? hrest)
          rw [List.filter_cons_of_pos (by simpa using hne), ih h.2 hrest]
          rfl

theorem get?_map_snd (f : α → β) (fields : Fields α) (name : String) :
    get? (fields.map fun field => (field.1, f field.2)) name = (fields.get? name).map f := by
  induction fields with
  | nil => rfl
  | cons field rest ih =>
      obtain ⟨first, old⟩ := field
      simp only [get?, List.map_cons, List.lookup_cons] at ih ⊢
      cases name == first
      · exact ih
      · rfl

theorem insert_of_not_mem {name : String} (value : α) {fields : Fields α}
    (h : name ∉ fields.names) : insert name value fields = fields ++ [(name, value)] := by
  induction fields with
  | nil => rfl
  | cons field rest ih =>
      obtain ⟨first, old⟩ := field
      simp only [names, List.map_cons, List.mem_cons, not_or] at h ih
      rw [insert, if_neg (Ne.symm h.1), ih h.2]
      rfl

theorem insertAll_cons (fields : Fields α) (name : String) (value : α) (rest : Fields α) :
    fields.insertAll ((name, value) :: rest) = (insert name value fields).insertAll rest := rfl

theorem mem_insert {name : String} {value : α} {fields : Fields α} {field : String × α}
    (h : field ∈ insert name value fields) : field = (name, value) ∨ field ∈ fields := by
  induction fields with
  | nil => exact .inl (List.mem_singleton.1 h)
  | cons first rest ih =>
      obtain ⟨other, old⟩ := first
      rw [insert] at h
      split at h
      · exact (List.mem_cons.1 h).imp_right (List.mem_cons_of_mem _)
      · rcases List.mem_cons.1 h with hfirst | hrest
        · exact .inr (hfirst ▸ List.mem_cons_self)
        · exact (ih hrest).imp_right (List.mem_cons_of_mem _)

theorem mem_insertAll {fields additions : Fields α} {field : String × α}
    (h : field ∈ fields.insertAll additions) : field ∈ fields ∨ field ∈ additions := by
  induction additions generalizing fields with
  | nil => exact .inl h
  | cons addition rest ih =>
      obtain ⟨name, value⟩ := addition
      rw [insertAll_cons] at h
      rcases ih h with hinsert | hrest
      · rcases mem_insert hinsert with hfirst | hfields
        · exact .inr (hfirst ▸ List.mem_cons_self)
        · exact .inl hfields
      · exact .inr (List.mem_cons_of_mem _ hrest)

theorem insertAll_eq_append {fields additions : Fields α}
    (h : (fields ++ additions).names.Nodup) : fields.insertAll additions = fields ++ additions := by
  induction additions generalizing fields with
  | nil => exact (List.append_nil _).symm
  | cons addition rest ih =>
      obtain ⟨name, value⟩ := addition
      have hname : name ∉ fields.names := by
        rw [names, List.map_append, List.nodup_append] at h
        intro hmem
        exact h.2.2 name hmem name (by simp) rfl
      have hrest : fields ++ (name, value) :: rest = (fields ++ [(name, value)]) ++ rest := by simp
      rw [insertAll_cons, insert_of_not_mem value hname, hrest]
      rw [hrest] at h
      exact ih h

/-- Entries of distinct names are fields already. -/
theorem ofList_eq_self {entries : Fields α} (h : entries.names.Nodup) : ofList entries = entries :=
  insertAll_eq_append (by simpa using h)

theorem map_snd_insert (f : α → β) (name : String) (value : α) (fields : Fields α) :
    (insert name value fields).map (fun field => (field.1, f field.2)) =
      insert name (f value) (fields.map fun field => (field.1, f field.2)) := by
  induction fields with
  | nil => rfl
  | cons field rest ih =>
      obtain ⟨first, old⟩ := field
      rw [insert, List.map_cons, insert]
      split
      · rfl
      · rw [List.map_cons, ih]

theorem map_snd_insertAll (f : α → β) (fields additions : Fields α) :
    (fields.insertAll additions).map (fun field => (field.1, f field.2)) =
      insertAll (fields.map fun field => (field.1, f field.2))
        (additions.map fun field => (field.1, f field.2)) := by
  induction additions generalizing fields with
  | nil => rfl
  | cons addition rest ih =>
      obtain ⟨name, value⟩ := addition
      rw [insertAll_cons, ih, map_snd_insert, List.map_cons, insertAll_cons]

/-- Fields of the same names in the same order are the same if they hold the same. -/
theorem eq_of_get? {fields others : Fields α} (hdistinct : fields.names.Nodup)
    (hnames : fields.names = others.names)
    (h : ∀ name ∈ fields.names, fields.get? name = others.get? name) : fields = others := by
  induction fields generalizing others with
  | nil => exact (List.map_eq_nil_iff.1 hnames.symm).symm
  | cons field rest ih =>
      obtain ⟨name, value⟩ := field
      cases others with
      | nil => cases hnames
      | cons other others =>
          obtain ⟨_, value'⟩ := other
          simp only [names, List.map_cons, List.cons.injEq] at hnames
          obtain ⟨rfl, hrest⟩ := hnames
          simp only [names, List.map_cons, List.nodup_cons] at hdistinct
          have hvalue : value = value' := by
            have hfirst := h name (by simp [names])
            simpa [get?] using hfirst
          have hothers : rest = others := by
            refine ih hdistinct.2 hrest fun other hother => ?_
            have hne : (other == name) = false := by
              refine beq_eq_false_iff_ne.2 ?_
              rintro rfl
              exact hdistinct.1 hother
            have hother' := h other (List.mem_cons_of_mem _ hother)
            simpa [get?, List.lookup_cons, hne] using hother'
          rw [hvalue, hothers]

theorem get?_insert (name other : String) (value : α) (fields : Fields α) :
    (insert name value fields).get? other =
      if other = name then some value else fields.get? other := by
  by_cases h : other = name
  · rw [h, get?_insert_self, if_pos rfl]
  · rw [get?_insert_of_ne h, if_neg h]

/-- The last of all additions of a name counts. -/
theorem get?_insertAll_or (fields additions : Fields α) (name : String) :
    (fields.insertAll additions).get? name = ((ofList additions).get? name).or (fields.get? name) := by
  induction additions generalizing fields with
  | nil => rfl
  | cons addition rest ih =>
      have hfields := ih (insert addition.1 addition.2 fields)
      have hsingle := ih (insert addition.1 addition.2 [])
      rw [ofList, insertAll, insertAll, List.foldl_cons, List.foldl_cons]
      refine hfields.trans ?_
      rw [show (List.foldl _ _ rest : Fields α) = insertAll (insert addition.1 addition.2 []) rest from rfl,
        hsingle, Option.or_assoc, get?_insert, get?_insert]
      split
      · rfl
      · rfl

theorem get?_ofList_append (entries additions : Fields α) (name : String) :
    (ofList (entries ++ additions)).get? name =
      ((ofList additions).get? name).or ((ofList entries).get? name) := by
  rw [ofList, insertAll, List.foldl_append]
  exact get?_insertAll_or (ofList entries) additions name

theorem get?_ofList_cons (first : String × α) (rest : Fields α) (name : String) :
    (ofList (first :: rest)).get? name =
      ((ofList rest).get? name).or (if name = first.1 then some first.2 else none) := by
  have happend := get?_ofList_append [first] rest name
  have hsingle : (ofList [first]).get? name = if name = first.1 then some first.2 else none :=
    get?_insert first.1 name first.2 []
  rw [hsingle] at happend
  exact happend

/-- Entries of other names do not count. -/
theorem get?_ofList_filter {p : String → Bool} {name : String} (hp : p name = true)
    (entries : Fields α) :
    (ofList (entries.filter fun entry => p entry.1)).get? name = (ofList entries).get? name := by
  induction entries with
  | nil => rfl
  | cons entry rest ih =>
      rw [get?_ofList_cons, ← ih]
      by_cases hentry : p entry.1 = true
      · rw [List.filter_cons_of_pos (by simpa using hentry), get?_ofList_cons]
      · have hne : name ≠ entry.1 := by
          intro hname
          rw [hname] at hp
          exact hentry hp
        rw [List.filter_cons_of_neg (by simpa using hentry), if_neg hne, Option.or_none]

end Fields

end RecordAlgebra
