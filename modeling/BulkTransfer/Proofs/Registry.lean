import BulkTransfer.Registry
import Mathlib.Algebra.GroupWithZero.Nat

/-!
# Registries in order

Storing and forgetting keep the names of a registry in strict order, so each name stands for one
value. A weight summed over all values then changes by the weight of the value that goes and of the
one that comes.
-/

namespace BulkTransfer
namespace Registry

variable {α : Type}

/-- All values have a property. -/
def All (property : α → Prop) (registry : Registry α) : Prop :=
  ∀ value ∈ registry.values, property value

/-- Every entry has a smaller name than those after it. -/
def Ordered (registry : Registry α) : Prop :=
  registry.entries.Pairwise (·.1 < ·.1)

/-- Sum of the weights of all values. -/
def total (registry : Registry α) (weight : α → Nat) : Nat :=
  (registry.values.map weight).sum

/-- Weight of the value under a name, if there is one. -/
def share (registry : Registry α) (weight : α → Nat) (name : String) : Nat :=
  ((registry.find? name).map weight).getD 0

/-- The same names with other values. -/
def map {β : Type} (change : α → β) (registry : Registry α) : Registry β :=
  ⟨registry.entries.map fun entry => (entry.1, change entry.2)⟩

theorem ordered_empty : ({} : Registry α).Ordered :=
  .nil

theorem lt_of_not_lt_of_ne {left right : String} (not_lt : ¬ left < right) (ne : right ≠ left) :
    right < left :=
  String.not_le.mp fun le => ne (String.le_antisymm (String.not_lt.mp not_lt) le)

theorem mem_place {name : String} {value : α} {entries : List (String × α)}
    {entry : String × α} (member : entry ∈ place name value entries) :
    entry = (name, value) ∨ entry ∈ entries := by
  induction entries with
  | nil => exact .inl (List.mem_singleton.mp member)
  | cons first rest ih =>
      rw [place] at member
      split at member
      · rcases List.mem_cons.mp member with new | old
        · exact .inl new
        · exact .inr (List.mem_cons_of_mem _ old)
      · split at member
        · exact List.mem_cons.mp member
        · rcases List.mem_cons.mp member with head | tail
          · exact .inr (head ▸ List.mem_cons_self)
          · exact (ih tail).imp_right (List.mem_cons_of_mem _)

theorem mem_values_insert {registry : Registry α} {name : String} {value other : α}
    (member : other ∈ (registry.insert name value).values) :
    other = value ∨ other ∈ registry.values := by
  obtain ⟨entry, placed, rfl⟩ := List.mem_map.mp member
  rcases mem_place placed with new | old
  · exact .inl (congrArg Prod.snd new)
  · exact .inr (List.mem_map_of_mem old)

theorem mem_values_erase {registry : Registry α} {name : String} {value : α}
    (member : value ∈ (registry.erase name).values) : value ∈ registry.values := by
  obtain ⟨entry, kept, rfl⟩ := List.mem_map.mp member
  exact List.mem_map_of_mem (List.mem_filter.mp kept).1

theorem mem_values_of_find? {registry : Registry α} {name : String} {value : α}
    (found : registry.find? name = some value) : value ∈ registry.values := by
  obtain ⟨entry, first, rfl⟩ := Option.map_eq_some_iff.mp found
  exact List.mem_map_of_mem (List.mem_of_find?_eq_some first)

namespace All

variable {property : α → Prop} {registry : Registry α}

theorem empty : ({} : Registry α).All property :=
  fun _ member => nomatch member

theorem insert (all : registry.All property) (name : String) {value : α} (new : property value) :
    (registry.insert name value).All property := by
  intro other member
  rcases mem_values_insert member with rfl | older
  · exact new
  · exact all other older

theorem erase (all : registry.All property) (name : String) :
    (registry.erase name).All property :=
  fun value member => all value (mem_values_erase member)

theorem of_find? (all : registry.All property) {name : String} {value : α}
    (found : registry.find? name = some value) : property value :=
  all value (mem_values_of_find? found)

end All

theorem mem_names_of_find? {registry : Registry α} {name : String} {value : α}
    (found : registry.find? name = some value) : name ∈ registry.entries.map Prod.fst := by
  obtain ⟨entry, first, -⟩ := Option.map_eq_some_iff.mp found
  have same : entry.1 = name := by simpa using List.find?_some first
  exact same ▸ List.mem_map_of_mem (List.mem_of_find?_eq_some first)

theorem ordered_insert {registry : Registry α} (ordered : registry.Ordered) (name : String)
    (value : α) : (registry.insert name value).Ordered := by
  obtain ⟨entries⟩ := registry
  simp only [Ordered, insert] at ordered ⊢
  induction entries with
  | nil => simp [place]
  | cons first rest ih =>
      obtain ⟨least, ordered⟩ := List.pairwise_cons.mp ordered
      rw [place]
      split
      · next same => exact .cons (fun entry member => same ▸ least entry member) ordered
      · next differ =>
          split
          · next before =>
              refine .cons ?_ (.cons least ordered)
              intro entry member
              rcases List.mem_cons.mp member with rfl | later
              · exact before
              · exact String.lt_trans before (least entry later)
          · next not_before =>
              refine .cons ?_ (ih ordered)
              intro entry member
              rcases mem_place member with rfl | later
              · exact lt_of_not_lt_of_ne not_before differ
              · exact least entry later

theorem ordered_erase {registry : Registry α} (ordered : registry.Ordered) (name : String) :
    (registry.erase name).Ordered :=
  ordered.filter _

/-- No name is found among greater ones. -/
theorem find?_eq_none_of_lt {entries : List (String × α)} {name : String}
    (least : ∀ entry ∈ entries, name < entry.1) : (⟨entries⟩ : Registry α).find? name = none := by
  refine Option.map_eq_none_iff.mpr (List.find?_eq_none.mpr fun entry member same => ?_)
  have equal : entry.1 = name := by simpa using same
  exact String.lt_irrefl name (equal ▸ least entry member)

theorem find?_cons (first : String × α) (rest : List (String × α)) (name : String) :
    (⟨first :: rest⟩ : Registry α).find? name =
      if first.1 = name then some first.2 else (⟨rest⟩ : Registry α).find? name := by
  by_cases same : first.1 = name <;> simp [find?, same]

theorem find?_head (first : String × α) (rest : List (String × α)) :
    (⟨first :: rest⟩ : Registry α).find? first.1 = some first.2 := by
  rw [find?_cons, if_pos rfl]

/-- Without its first name a registry in order is the rest of it. -/
theorem erase_head {first : String × α} {rest : List (String × α)}
    (least : ∀ entry ∈ rest, first.1 < entry.1) :
    (⟨first :: rest⟩ : Registry α).erase first.1 = ⟨rest⟩ := by
  apply congrArg Registry.mk
  rw [List.filter_cons_of_neg (by simp)]
  refine List.filter_eq_self.mpr fun entry member => decide_eq_true ?_
  exact fun same => String.lt_irrefl first.1 (same ▸ least entry member)

/-- Storing a value where it is already changes nothing. -/
theorem insert_eq_self {registry : Registry α} (ordered : registry.Ordered) {name : String}
    {value : α} (found : registry.find? name = some value) :
    registry.insert name value = registry := by
  obtain ⟨entries⟩ := registry
  apply congrArg Registry.mk
  induction entries with
  | nil => simp [find?] at found
  | cons first rest ih =>
      obtain ⟨least, ordered⟩ := List.pairwise_cons.mp ordered
      rw [find?_cons] at found
      rw [place]
      split
      · next same =>
          rw [if_pos same] at found
          rw [← same, ← Option.some.inj found]
      · next differ =>
          rw [if_neg differ] at found
          split
          · next before =>
              rw [find?_eq_none_of_lt fun entry member =>
                String.lt_trans before (least entry member)] at found
              simp at found
          · rw [ih ordered found]

theorem total_insert {registry : Registry α} (ordered : registry.Ordered) (weight : α → Nat)
    (name : String) (value : α) :
    (registry.insert name value).total weight + registry.share weight name =
      registry.total weight + weight value := by
  obtain ⟨entries⟩ := registry
  simp only [total, share, values, insert]
  induction entries with
  | nil => simp [place, find?]
  | cons first rest ih =>
      obtain ⟨least, ordered⟩ := List.pairwise_cons.mp ordered
      rw [place, find?_cons]
      split
      · simp only [List.map_cons, List.sum_cons, Option.map_some, Option.getD_some]
        omega
      · next differ =>
          split
          · next before =>
              rw [find?_eq_none_of_lt fun entry member =>
                String.lt_trans before (least entry member)]
              simp only [List.map_cons, List.sum_cons, Option.map_none, Option.getD_none]
              omega
          · have later := ih ordered
            simp only [List.map_cons, List.sum_cons]
            omega

theorem total_erase {registry : Registry α} (ordered : registry.Ordered) (weight : α → Nat)
    (name : String) :
    (registry.erase name).total weight + registry.share weight name = registry.total weight := by
  obtain ⟨entries⟩ := registry
  simp only [total, share, values, erase]
  induction entries with
  | nil => simp [find?]
  | cons first rest ih =>
      obtain ⟨least, ordered⟩ := List.pairwise_cons.mp ordered
      have later := ih ordered
      rw [find?_cons, List.filter_cons]
      by_cases same : first.1 = name
      · have none_later : (⟨rest⟩ : Registry α).find? name = none :=
          find?_eq_none_of_lt fun entry member => same ▸ least entry member
        rw [none_later] at later
        rw [if_pos same, if_neg (by simp [same])]
        simp only [Option.map_none, Option.getD_none, Option.map_some, Option.getD_some,
          List.map_cons, List.sum_cons] at later ⊢
        omega
      · rw [if_neg same, if_pos (by simp [same])]
        simp only [List.map_cons, List.sum_cons]
        omega

section Map

variable {β : Type} (change : α → β) (registry : Registry α) (name : String)

@[simp]
theorem find?_map : (registry.map change).find? name = (registry.find? name).map change := by
  simp only [find?, map, List.find?_map, Option.map_map]
  rfl

theorem place_map (value : α) (entries : List (String × α)) :
    place name (change value) (entries.map fun entry => (entry.1, change entry.2)) =
      (place name value entries).map fun entry => (entry.1, change entry.2) := by
  induction entries with
  | nil => rfl
  | cons first rest ih =>
      simp only [List.map_cons, place]
      split
      · rfl
      · split
        · rfl
        · rw [ih, List.map_cons]

theorem map_insert (value : α) :
    (registry.insert name value).map change = (registry.map change).insert name (change value) :=
  congrArg Registry.mk (place_map change name value registry.entries).symm

theorem map_erase : (registry.erase name).map change = (registry.map change).erase name := by
  simp only [map, erase, List.filter_map]
  rfl

end Map

/-- What is forgotten at once was never stored. -/
theorem erase_insert (registry : Registry α) (name : String) (value : α) :
    (registry.insert name value).erase name = registry.erase name := by
  obtain ⟨entries⟩ := registry
  apply congrArg Registry.mk
  simp only [insert]
  induction entries with
  | nil => simp [place]
  | cons first rest ih =>
      rw [place]
      split
      · next same => simp [same]
      · split
        · simp
        · simp only [List.filter_cons]
          rw [ih]

end Registry
end BulkTransfer
