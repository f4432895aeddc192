/-!
# Named fields

Fields are values under distinct names, kept in the order of the names' code
points.  Inserting under a name that is taken replaces its value, so building
fields from a list lets the last value of a name win.
-/

namespace DocumentQuery

/-- Values under names, in ascending order of the names. -/
abbrev Fields (α : Type) := List (String × α)

namespace Fields

variable {α β : Type}

/-- Puts a value under a name, replacing the value already there. -/
def insert (name : String) (value : α) : Fields α → Fields α
  | [] => [(name, value)]
  | (other, old) :: rest =>
    if name < other then (name, value) :: (other, old) :: rest
    else if name = other then (name, value) :: rest
    else (other, old) :: insert name value rest

/-- Fields from pairs in any order; of a repeated name the last value stays. -/
def ofList (pairs : List (String × α)) : Fields α :=
  pairs.foldl (fun fields (name, value) => insert name value fields) []

def find? (name : String) : Fields α → Option α
  | [] => none
  | (other, value) :: rest => if other = name then some value else find? name rest

def names (fields : Fields α) : List String := List.map Prod.fst fields

def values (fields : Fields α) : List α := List.map Prod.snd fields

def contains (name : String) (fields : Fields α) : Bool := (find? name fields).isSome

def mapValues (f : α → β) (fields : Fields α) : Fields β :=
  List.map (fun (name, value) => (name, f value)) fields

/-- The names ascend strictly. -/
def Sorted (fields : Fields α) : Prop := List.Pairwise (fun a b => a.1 < b.1) fields

@[simp] theorem find?_nil (name : String) : find? name ([] : Fields α) = none := rfl

@[simp] theorem find?_insert (name other : String) (value : α) (fields : Fields α) :
    find? other (insert name value fields) =
      if name = other then some value else find? other fields := by
  induction fields with
  | nil => simp [insert, find?]
  | cons head rest ih =>
    obtain ⟨taken, old⟩ := head
    by_cases hlt : name < taken
    · simp [insert, find?, hlt]
    · by_cases heq : name = taken
      · subst heq
        by_cases ho : name = other <;> simp [insert, find?, ho]
      · by_cases ho : taken = other
        · subst ho
          simp [insert, find?, hlt, heq]
        · simp [insert, find?, hlt, heq, ho, ih]

theorem mem_insert {name : String} {value : α} {fields : Fields α} {pair : String × α}
    (h : pair ∈ insert name value fields) : pair = (name, value) ∨ pair ∈ fields := by
  induction fields with
  | nil => simpa [insert] using h
  | cons head rest ih =>
    obtain ⟨taken, old⟩ := head
    unfold insert at h
    split at h
    · simpa using h
    · split at h
      · rcases List.mem_cons.1 h with h | h
        · exact .inl h
        · exact .inr (List.mem_cons_of_mem _ h)
      · rcases List.mem_cons.1 h with h | h
        · exact .inr (h ▸ List.mem_cons_self)
        · exact (ih h).imp id (List.mem_cons_of_mem _)

theorem sorted_nil : Sorted ([] : Fields α) := List.Pairwise.nil

theorem Sorted.insert {fields : Fields α} (h : Sorted fields) (name : String) (value : α) :
    Sorted (insert name value fields) := by
  induction fields with
  | nil => exact List.pairwise_singleton ..
  | cons head rest ih =>
    obtain ⟨taken, old⟩ := head
    obtain ⟨hhead, hrest⟩ := List.pairwise_cons.1 h
    unfold Fields.insert
    split
    · next hlt =>
      refine List.pairwise_cons.2 ⟨fun pair hpair => ?_, h⟩
      rcases List.mem_cons.1 hpair with rfl | hpair
      · exact hlt
      · exact String.lt_trans hlt (hhead pair hpair)
    · next hlt =>
      split
      · next heq =>
        subst heq
        exact List.pairwise_cons.2 ⟨hhead, hrest⟩
      · next hne =>
        refine List.pairwise_cons.2 ⟨fun pair hpair => ?_, ih hrest⟩
        rcases mem_insert hpair with rfl | hpair
        · exact Decidable.byContradiction fun hnot =>
            hne (String.le_antisymm hnot hlt)
        · exact hhead pair hpair

theorem sorted_ofList (pairs : List (String × α)) : Sorted (ofList pairs) := by
  suffices ∀ fields : Fields α, Sorted fields →
      Sorted (pairs.foldl (fun fields (name, value) => insert name value fields) fields) from
    this [] sorted_nil
  induction pairs with
  | nil => exact fun _ h => h
  | cons pair rest ih => exact fun fields h => ih _ (Sorted.insert h pair.1 pair.2)

section Lookup

variable {fields : Fields α} {name : String} {value : α}

theorem find?_cons (other : String) (old : α) (rest : Fields α) :
    find? name ((other, old) :: rest) =
      if other = name then some old else find? name rest :=
  rfl

theorem names_cons (other : String) (old : α) (rest : Fields α) :
    names ((other, old) :: rest) = other :: names rest :=
  rfl

theorem find?_eq_none (h : name ∉ names fields) : find? name fields = none := by
  induction fields with
  | nil => rfl
  | cons field rest ih =>
      rw [names_cons, List.mem_cons, not_or] at h
      rw [find?_cons, if_neg (Ne.symm h.1), ih h.2]

theorem mem_of_find? (h : find? name fields = some value) : (name, value) ∈ fields := by
  induction fields with
  | nil => cases h
  | cons field rest ih =>
      obtain ⟨other, old⟩ := field
      rw [find?_cons] at h
      split at h
      · next hname =>
        cases h
        exact hname ▸ List.mem_cons_self
      · exact List.mem_cons_of_mem _ (ih h)

theorem find?_eq_some_iff (hnodup : (names fields).Nodup) :
    find? name fields = some value ↔ (name, value) ∈ fields := by
  refine ⟨mem_of_find?, fun hmem => ?_⟩
  induction fields with
  | nil => cases hmem
  | cons field rest ih =>
      obtain ⟨other, old⟩ := field
      obtain ⟨hfresh, hrest⟩ := List.nodup_cons.1 hnodup
      rcases List.mem_cons.1 hmem with heq | hmem
      · cases heq
        simp [find?_cons]
      · have hlisted : name ∈ names rest := List.mem_map_of_mem hmem
        have hname : other ≠ name := fun heq => hfresh (heq ▸ hlisted)
        rw [find?_cons, if_neg hname, ih hrest hmem]

theorem Sorted.nodup_names (h : Sorted fields) : (names fields).Nodup := by
  refine List.pairwise_map.2 (h.imp fun hlt heq => ?_)
  exact String.lt_irrefl _ (heq ▸ hlt)

theorem isSome_find?_iff : (find? name fields).isSome ↔ name ∈ names fields := by
  induction fields with
  | nil => simp [names]
  | cons field rest ih =>
      obtain ⟨other, old⟩ := field
      rw [find?_cons, names_cons, List.mem_cons, ← ih]
      by_cases hname : other = name
      · simp [hname]
      · simp [hname, Ne.symm hname]

end Lookup

end Fields

end DocumentQuery
