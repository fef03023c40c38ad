/-!
Dictionaries with texts as keys.  The entries are a list in strictly ascending order of their
keys, which is the byte order of the keys' UTF-8, so equal contents make equal dictionaries.
-/
namespace Uplink

/-- Entries in strictly ascending order of their keys. -/
def Ascending {α : Type} (entries : List (String × α)) : Prop :=
  entries.Pairwise fun a b => a.1 < b.1

instance {α : Type} (entries : List (String × α)) : Decidable (Ascending entries) :=
  inferInstanceAs (Decidable (entries.Pairwise fun a b => a.1 < b.1))

/-- The entries with `v` at key `k`, in the place that keeps the keys ascending. -/
def putEntry {α : Type} (k : String) (v : α) : List (String × α) → List (String × α)
  | [] => [(k, v)]
  | (k', v') :: rest =>
    if k < k' then (k, v) :: (k', v') :: rest
    else if k = k' then (k, v) :: rest
    else (k', v') :: putEntry k v rest

theorem key_mem_of_mem_putEntry {α : Type} {k : String} {v : α} {entries : List (String × α)}
    {e : String × α} (h : e ∈ putEntry k v entries) : e = (k, v) ∨ e ∈ entries := by
  induction entries with
  | nil => simpa [putEntry] using h
  | cons head rest ih =>
    obtain ⟨k', v'⟩ := head
    unfold putEntry at h
    split at h
    · simpa using h
    · split at h <;> rename_i heq
      · simp only [List.mem_cons] at h ⊢
        exact h.imp id Or.inr
      · simp only [List.mem_cons] at h ⊢
        rcases h with h | h
        · exact Or.inr (Or.inl h)
        · exact (ih h).imp id Or.inr

theorem ascending_putEntry {α : Type} (k : String) (v : α) {entries : List (String × α)}
    (h : Ascending entries) : Ascending (putEntry k v entries) := by
  induction entries with
  | nil => simp [putEntry, Ascending]
  | cons head rest ih =>
    obtain ⟨k', v'⟩ := head
    obtain ⟨hhead, hrest⟩ := List.pairwise_cons.mp h
    unfold putEntry
    split <;> rename_i hlt
    · refine List.pairwise_cons.mpr ⟨fun e he => ?_, h⟩
      rcases List.mem_cons.mp he with rfl | he
      · exact hlt
      · exact String.lt_trans hlt (hhead e he)
    · split <;> rename_i heq
      · subst heq
        exact List.pairwise_cons.mpr ⟨hhead, hrest⟩
      · refine List.pairwise_cons.mpr ⟨fun e he => ?_, ih hrest⟩
        rcases key_mem_of_mem_putEntry he with rfl | he
        · exact Std.lt_of_le_of_ne (String.not_lt.mp hlt) (fun h => heq h.symm)
        · exact hhead e he

/-- A key above all others goes to the end. -/
theorem putEntry_eq_append {α : Type} {k : String} {entries : List (String × α)}
    (h : ∀ e ∈ entries, e.1 < k) (v : α) : putEntry k v entries = entries ++ [(k, v)] := by
  induction entries with
  | nil => rfl
  | cons head rest ih =>
    obtain ⟨below, others⟩ := List.forall_mem_cons.mp h
    have notAbove : ¬k < head.1 := String.lt_asymm below
    have notEqual : k ≠ head.1 := fun e => String.lt_irrefl k (e ▸ below)
    rw [putEntry, if_neg notAbove, if_neg notEqual, ih others, List.cons_append]

structure Dictionary (α : Type) where
  entries : List (String × α)
  ascending : Ascending entries

namespace Dictionary

variable {α β : Type}

instance [DecidableEq α] : DecidableEq (Dictionary α) := fun a b =>
  if h : a.entries = b.entries then isTrue (by cases a; cases b; cases h; rfl)
  else isFalse (fun e => h (congrArg entries e))

instance [Repr α] : Repr (Dictionary α) := ⟨fun d n => reprPrec d.entries n⟩

def empty : Dictionary α := ⟨[], List.Pairwise.nil⟩

instance : Inhabited (Dictionary α) := ⟨empty⟩

def get? (d : Dictionary α) (k : String) : Option α := d.entries.lookup k

def put (d : Dictionary α) (k : String) (v : α) : Dictionary α :=
  ⟨putEntry k v d.entries, ascending_putEntry k v d.ascending⟩

def erase (d : Dictionary α) (k : String) : Dictionary α :=
  ⟨d.entries.filter (·.1 ≠ k), d.ascending.filter _⟩

def size (d : Dictionary α) : Nat := d.entries.length

def isEmpty (d : Dictionary α) : Bool := d.entries.isEmpty

def map (f : α → β) (d : Dictionary α) : Dictionary β :=
  ⟨d.entries.map fun e => (e.1, f e.2), by
    have := d.ascending
    simpa [Ascending, List.pairwise_map] using this⟩

/-- Changes or drops each value. -/
def filterMap (f : String → α → Option β) (d : Dictionary α) : Dictionary β :=
  ⟨d.entries.filterMap fun e => (f e.1 e.2).map fun v => (e.1, v), by
    refine List.Pairwise.filterMap _ (fun a b hab a' ha b' hb => ?_) d.ascending
    obtain ⟨_, _, rfl⟩ := Option.map_eq_some_iff.mp ha
    obtain ⟨_, _, rfl⟩ := Option.map_eq_some_iff.mp hb
    exact hab⟩

/-! ### Looking up -/

theorem lookup_putEntry_self (k : String) (v : α) (entries : List (String × α)) :
    (putEntry k v entries).lookup k = some v := by
  induction entries with
  | nil => simp [putEntry]
  | cons head rest ih =>
    obtain ⟨k', v'⟩ := head
    unfold putEntry
    split
    · simp
    · split <;> rename_i heq
      · simp
      · have hne : (k == k') = false := by simpa using heq
        rw [List.lookup_cons, hne]
        exact ih

theorem lookup_putEntry_of_ne {k j : String} (h : j ≠ k) (v : α) (entries : List (String × α)) :
    (putEntry k v entries).lookup j = entries.lookup j := by
  have hjk : (j == k) = false := by simpa using h
  induction entries with
  | nil => simp [putEntry, h]
  | cons head rest ih =>
    obtain ⟨k', v'⟩ := head
    unfold putEntry
    split
    · rw [List.lookup_cons, hjk]
    · split <;> rename_i heq
      · subst heq
        simp [List.lookup_cons, hjk]
      · rw [List.lookup_cons, List.lookup_cons, ih]

theorem lookup_eq_none_of_forall_ne {k : String} {entries : List (String × α)}
    (h : ∀ e ∈ entries, e.1 ≠ k) : entries.lookup k = none := by
  induction entries with
  | nil => rfl
  | cons head rest ih =>
    have hk : (k == head.1) = false := by
      simpa using fun e : k = head.1 => h head (List.mem_cons_self ..) e.symm
    rw [List.lookup_cons, hk]
    exact ih fun e he => h e (List.mem_cons_of_mem _ he)

/-- In ascending entries a key stands once, so dropping entries hides none behind another. -/
theorem lookup_filterMap {entries : List (String × α)} (h : Ascending entries)
    (f : String → α → Option β) (k : String) :
    (entries.filterMap fun e => (f e.1 e.2).map fun v => (e.1, v)).lookup k
      = (entries.lookup k).bind (f k) := by
  induction entries with
  | nil => rfl
  | cons head rest ih =>
    obtain ⟨k', v⟩ := head
    obtain ⟨hhead, hrest⟩ := List.pairwise_cons.mp h
    have ih := ih hrest
    by_cases hk : k = k'
    · subst hk
      have hnone : rest.lookup k = none :=
        lookup_eq_none_of_forall_ne fun e he heq => String.lt_irrefl k (heq ▸ hhead e he)
      cases hv : f k v with
      | none => simp [hv, ih, hnone]
      | some w => simp [hv]
    · have hkk : (k == k') = false := by simpa using hk
      cases hv : f k' v with
      | none => simp [List.lookup_cons, hv, ih, hkk]
      | some w => simp [List.lookup_cons, hv, ih, hkk]

theorem lookup_filter_of_ne {k j : String} (h : j ≠ k) (entries : List (String × α)) :
    (entries.filter (·.1 ≠ k)).lookup j = entries.lookup j := by
  induction entries with
  | nil => rfl
  | cons head rest ih =>
    rw [List.filter_cons, List.lookup_cons]
    split <;> rename_i hh
    · rw [List.lookup_cons, ih]
    · have hk : head.1 = k := by simpa using hh
      have hj : (j == head.1) = false := by simpa [hk] using h
      rw [hj]
      exact ih

theorem lookup_map (f : α → β) (k : String) (entries : List (String × α)) :
    (entries.map fun e => (e.1, f e.2)).lookup k = (entries.lookup k).map f := by
  induction entries with
  | nil => rfl
  | cons head rest ih =>
    rw [List.map_cons, List.lookup_cons, List.lookup_cons]
    cases k == head.1
    · exact ih
    · rfl

@[simp] theorem get?_empty (k : String) : (empty : Dictionary α).get? k = none := rfl

@[simp] theorem get?_put_self (d : Dictionary α) (k : String) (v : α) :
    (d.put k v).get? k = some v := lookup_putEntry_self k v d.entries

theorem get?_put_of_ne (d : Dictionary α) {k j : String} (h : j ≠ k) (v : α) :
    (d.put k v).get? j = d.get? j := lookup_putEntry_of_ne h v d.entries

theorem get?_filterMap (f : String → α → Option β) (d : Dictionary α) (k : String) :
    (d.filterMap f).get? k = (d.get? k).bind (f k) := lookup_filterMap d.ascending f k

@[simp] theorem get?_erase_self (d : Dictionary α) (k : String) : (d.erase k).get? k = none := by
  apply lookup_eq_none_of_forall_ne
  intro e he
  simpa using (List.mem_filter.mp he).2

theorem get?_erase_of_ne (d : Dictionary α) {k j : String} (h : j ≠ k) :
    (d.erase k).get? j = d.get? j := lookup_filter_of_ne h d.entries

theorem get?_map (f : α → β) (d : Dictionary α) (k : String) :
    (d.map f).get? k = (d.get? k).map f := lookup_map f k d.entries

end Dictionary

end Uplink
