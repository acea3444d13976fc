/-
# Bindings

The values of the variables, by name. Names are compared letter by letter, and the
imaginary unit is bound by the notation itself.
-/
import ComplexFormula.Complex.Basic

namespace ComplexFormula

/-! ## Reserved names -/

/-- The names bound by the notation: the imaginary unit in either case. -/
def reserved? (name : String) : Option Complex :=
  if name = "i" ∨ name = "I" then some .unit else none

/-- Whether a name cannot be bound. -/
def isReserved (name : String) : Bool := (reserved? name).isSome

/-! ## Lists of values by name -/

/-- Binds a name in a list of pairs, in place of the value that it had, or else at the end. -/
def bindIn (name : String) (value : Complex) : List (String × Complex) → List (String × Complex)
  | [] => [(name, value)]
  | (key, old) :: rest =>
    if key = name then (name, value) :: rest else (key, old) :: bindIn name value rest

/-- Binding adds at most the name itself. -/
theorem mem_names_bindIn {name : String} {value : Complex} {entries : List (String × Complex)}
    {key : String} (h : key ∈ (bindIn name value entries).map Prod.fst) :
    key = name ∨ key ∈ entries.map Prod.fst := by
  fun_induction bindIn name value entries with
  | case1 => simp_all
  | case2 => simp_all
  | case3 key' old rest hk ih =>
    simp only [List.map_cons, List.mem_cons] at h ⊢
    rcases h with h | h
    · exact Or.inr (Or.inl h)
    · exact (ih h).imp_right Or.inr

/-- Binding keeps the names distinct. -/
theorem nodup_names_bindIn {name : String} {value : Complex}
    {entries : List (String × Complex)} (h : (entries.map Prod.fst).Nodup) :
    ((bindIn name value entries).map Prod.fst).Nodup := by
  fun_induction bindIn name value entries with
  | case1 => simp
  | case2 old rest => exact h
  | case3 key old rest hk ih =>
    rw [List.map_cons, List.nodup_cons] at h ⊢
    refine ⟨fun hmem => ?_, ih h.2⟩
    rcases mem_names_bindIn hmem with heq | hin
    · exact hk heq
    · exact h.1 hin

/-- After binding a name, it alone has another value. -/
theorem lookup_bindIn (name other : String) (value : Complex)
    (entries : List (String × Complex)) :
    (bindIn name value entries).lookup other
      = if other = name then some value else entries.lookup other := by
  fun_induction bindIn name value entries with
  | case1 => by_cases ho : other = name <;> simp [ho]
  | case2 old rest =>
    by_cases ho : other = name
    · simp [ho]
    · simp [ho, List.lookup_cons, beq_false_of_ne ho]
  | case3 key old rest hk ih =>
    by_cases ho : other = key
    · simp [ho, hk]
    · simp [List.lookup_cons, beq_false_of_ne ho, ih]

/-! ## Tables of values -/

/-- A table of values in which each name occurs once, in order of first binding. -/
structure Bindings where
  entries : List (String × Complex)
  distinct : (entries.map Prod.fst).Nodup
  deriving DecidableEq

namespace Bindings

/-- The empty table. -/
def empty : Bindings := ⟨[], List.nodup_nil⟩

/-- The number of names. -/
def size (b : Bindings) : Nat := b.entries.length

/-- Whether the table is empty. -/
def isEmpty (b : Bindings) : Bool := b.entries.isEmpty

/-- The value bound to a name. -/
def get? (b : Bindings) (name : String) : Option Complex := b.entries.lookup name

/-- Whether a name is bound. -/
def contains (b : Bindings) (name : String) : Bool := (b.get? name).isSome

/-- The value that a formula sees under a name: that of the notation before that of the
table. -/
def resolve? (b : Bindings) (name : String) : Option Complex :=
  (reserved? name).or (b.get? name)

/-- Binds a name, in place of the value that it had. -/
def insert (b : Bindings) (name : String) (value : Complex) : Bindings :=
  ⟨bindIn name value b.entries, nodup_names_bindIn b.distinct⟩

/-- Nothing is bound in the empty table. -/
theorem get?_empty (name : String) : empty.get? name = none := rfl

/-- After binding a name, it alone has another value. -/
theorem get?_insert (b : Bindings) (name other : String) (value : Complex) :
    (b.insert name value).get? other = if other = name then some value else b.get? other :=
  lookup_bindIn name other value b.entries

/-- Binds pairs in order, a later one in place of an earlier one of its name. -/
def insertAll (b : Bindings) (pairs : List (String × Complex)) : Bindings :=
  pairs.foldl (fun table pair => table.insert pair.1 pair.2) b

/-- The table of some pairs. -/
def ofList (pairs : List (String × Complex)) : Bindings := empty.insertAll pairs

/-- The pairs of the table, by increasing name. -/
def sorted (b : Bindings) : List (String × Complex) :=
  b.entries.mergeSort fun x y => x.1 ≤ y.1

end Bindings

end ComplexFormula
