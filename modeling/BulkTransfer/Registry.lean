/-!
# Registries

Values kept under names, in the order of the names. Storing under a used name replaces the value.
-/

namespace BulkTransfer

/-- Named values in the order of their names. -/
structure Registry (α : Type) where
  /-- Names with their values. -/
  entries : List (String × α) := []

namespace Registry

variable {α : Type}

/-- Value stored under a name. -/
def find? (registry : Registry α) (name : String) : Option α :=
  (registry.entries.find? (·.1 = name)).map Prod.snd

/-- Place a named value among others, replacing one of the same name. -/
def place (name : String) (value : α) : List (String × α) → List (String × α)
  | [] => [(name, value)]
  | entry :: rest =>
      if entry.1 = name then
        (name, value) :: rest
      else if name < entry.1 then
        (name, value) :: entry :: rest
      else
        entry :: place name value rest

/-- Store a value under a name. -/
def insert (registry : Registry α) (name : String) (value : α) : Registry α :=
  ⟨place name value registry.entries⟩

/-- Forget the value under a name. -/
def erase (registry : Registry α) (name : String) : Registry α :=
  ⟨registry.entries.filter (·.1 ≠ name)⟩

/-- Values in the order of their names. -/
def values (registry : Registry α) : List α :=
  registry.entries.map Prod.snd

@[simp]
theorem find?_insert_self (registry : Registry α) (name : String) (value : α) :
    (registry.insert name value).find? name = some value := by
  simp only [find?, insert]
  induction registry.entries with
  | nil => simp [place]
  | cons entry rest ih =>
      rw [place]
      split
      · simp
      · split
        · simp
        · simp [*]

@[simp]
theorem find?_insert_of_ne (registry : Registry α) {name sought : String} (value : α)
    (differ : name ≠ sought) :
    (registry.insert name value).find? sought = registry.find? sought := by
  simp only [find?, insert]
  induction registry.entries with
  | nil => simp [place, differ]
  | cons entry rest ih =>
      rw [place]
      split
      · simp_all
      · split
        · simp [differ]
        · simp only [List.find?_cons]
          split <;> simp_all

@[simp]
theorem find?_erase_self (registry : Registry α) (name : String) :
    (registry.erase name).find? name = none := by
  simp [find?, erase]

@[simp]
theorem find?_erase_of_ne (registry : Registry α) {name sought : String} (differ : name ≠ sought) :
    (registry.erase name).find? sought = registry.find? sought := by
  simp only [find?, erase]
  induction registry.entries with
  | nil => rfl
  | cons entry rest ih =>
      by_cases same : entry.1 = name
      · simp_all
      · by_cases found : entry.1 = sought <;> simp_all

end Registry
end BulkTransfer
