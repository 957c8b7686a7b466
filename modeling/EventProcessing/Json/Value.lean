/-!
JSON values. The fields of an object are kept in the order of their keys, one entry a key, so that
two values are the same object exactly when they are equal.
-/

namespace EventProcessing

/-- An integer keeps its exact value; a double is kept by its bit pattern. -/
inductive Json.Number where
  | integer (value : Int)
  | double (bits : UInt64)
  deriving DecidableEq, Inhabited

inductive Json where
  | null
  | bool (value : Bool)
  | number (value : Json.Number)
  | string (text : String)
  | array (elements : List Json)
  | object (fields : List (String × Json))
  deriving Inhabited

namespace Json

abbrev Fields := List (String × Json)

namespace Fields

def get? : Fields → String → Option Json
  | [], _ => none
  | (k, v) :: rest, key => if k = key then some v else get? rest key

def put (key : String) (value : Json) : Fields → Fields
  | [] => [(key, value)]
  | (k, v) :: rest =>
    if key < k then (key, value) :: (k, v) :: rest
    else if k = key then (key, value) :: rest
    else (k, v) :: put key value rest

/-- Entries of `extra` win over entries of `base`. -/
def merge (base extra : Fields) : Fields :=
  extra.foldl (fun fields entry => fields.put entry.1 entry.2) base

def ofList (entries : List (String × Json)) : Fields :=
  merge [] entries

@[simp] theorem get?_nil (key : String) : get? [] key = none := rfl

@[simp] theorem merge_nil (base : Fields) : merge base [] = base := rfl

@[simp] theorem merge_cons (base : Fields) (entry : String × Json) (rest : Fields) :
    merge base (entry :: rest) = merge (base.put entry.1 entry.2) rest := rfl

theorem get?_put_self (fields : Fields) (key : String) (value : Json) :
    (fields.put key value).get? key = some value := by
  induction fields with
  | nil => simp [put, get?]
  | cons entry rest ih =>
    obtain ⟨k, v⟩ := entry
    simp only [put]
    split
    · simp [get?]
    · split
      · simp [get?]
      · next h => simpa [get?, h] using ih

theorem get?_put_of_ne (fields : Fields) {key other : String} (value : Json) (h : other ≠ key) :
    (fields.put key value).get? other = fields.get? other := by
  induction fields with
  | nil => simp [put, get?, Ne.symm h]
  | cons entry rest ih =>
    obtain ⟨k, v⟩ := entry
    simp only [put]
    split
    · simp [get?, Ne.symm h]
    · split
      · next hk => subst hk; simp [get?, Ne.symm h]
      · simp only [get?, ih]

def Sorted (fields : Fields) : Prop := fields.Pairwise (·.1 < ·.1)

instance (fields : Fields) : Decidable fields.Sorted :=
  inferInstanceAs (Decidable (fields.Pairwise (·.1 < ·.1)))

theorem mem_put {fields : Fields} {key : String} {value : Json} {entry : String × Json}
    (h : entry ∈ fields.put key value) : entry = (key, value) ∨ entry ∈ fields := by
  induction fields with
  | nil => exact .inl (List.mem_singleton.mp h)
  | cons first rest ih =>
    unfold put at h
    split at h
    · exact List.mem_cons.mp h
    · split at h
      · exact (List.mem_cons.mp h).imp_right (List.mem_cons_of_mem _)
      · rcases List.mem_cons.mp h with rfl | h
        · exact .inr List.mem_cons_self
        · exact (ih h).imp_right (List.mem_cons_of_mem _)

namespace Sorted

theorem put {fields : Fields} (h : fields.Sorted) (key : String) (value : Json) :
    (fields.put key value).Sorted := by
  induction fields with
  | nil => exact List.pairwise_singleton _ _
  | cons first rest ih =>
    obtain ⟨hfirst, hrest⟩ := List.pairwise_cons.mp h
    unfold Fields.put
    split
    · next hlt =>
      refine List.pairwise_cons.mpr ⟨fun entry he => ?_, h⟩
      rcases List.mem_cons.mp he with rfl | he
      · exact hlt
      · exact String.lt_trans hlt (hfirst entry he)
    · next hge =>
      split
      · next heq =>
        subst heq
        exact List.pairwise_cons.mpr ⟨hfirst, hrest⟩
      · next hne =>
        refine List.pairwise_cons.mpr ⟨fun entry he => ?_, ih hrest⟩
        rcases mem_put he with rfl | he
        · exact Std.lt_of_le_of_ne (String.not_lt.mp hge) hne
        · exact hfirst entry he

theorem merge {base : Fields} (h : base.Sorted) (extra : Fields) : (base.merge extra).Sorted := by
  induction extra generalizing base with
  | nil => exact h
  | cons entry rest ih => exact ih (h.put entry.1 entry.2)

end Sorted

end Fields

structure Object where
  fields : Fields
  sorted : fields.Sorted

namespace Object

def empty : Object := ⟨[], .nil⟩

instance : Inhabited Object := ⟨empty⟩

def get? (object : Object) (key : String) : Option Json := object.fields.get? key

def put (object : Object) (key : String) (value : Json) : Object :=
  ⟨object.fields.put key value, object.sorted.put key value⟩

def merge (base extra : Object) : Object :=
  ⟨base.fields.merge extra.fields, base.sorted.merge extra.fields⟩

/-- Of two entries with one key the later counts. -/
def ofList (entries : List (String × Json)) : Object := ⟨.ofList entries, .merge .nil entries⟩

instance : CoeOut Object Fields := ⟨fields⟩

/-- Entries in any order stand for the object that they make. -/
instance : Coe Fields Object := ⟨ofList⟩

instance {α : Type} : CoeDep (List α) [] Object := ⟨empty⟩

end Object

def string? : Json → Option String
  | .string text => some text
  | _ => none

def integer? : Json → Option Int
  | .number (.integer value) => some value
  | _ => none

def bool? : Json → Option Bool
  | .bool value => some value
  | _ => none

def elements : Json → List Json
  | .array elements => elements
  | _ => []

def fields : Json → Fields
  | .object fields => fields
  | _ => []

def field (json : Json) (key : String) : Json := (json.fields.get? key).getD .null

/-- Whether two numbers stand for one value: zero has two doubles, and no number that is not one
is equal to itself. -/
def Number.same : Number → Number → Bool
  | .integer a, .integer b => a == b
  | .double a, .double b => Float.ofBits a == Float.ofBits b
  | _, _ => false

mutual

def same : Json → Json → Bool
  | .null, .null => true
  | .bool a, .bool b => a == b
  | .number a, .number b => a.same b
  | .string a, .string b => a == b
  | .array xs, .array ys => sameElements xs ys
  | .object xs, .object ys => sameFields xs ys
  | _, _ => false

def sameElements : List Json → List Json → Bool
  | [], [] => true
  | x :: xs, y :: ys => same x y && sameElements xs ys
  | _, _ => false

def sameFields : List (String × Json) → List (String × Json) → Bool
  | [], [] => true
  | (k, x) :: xs, (l, y) :: ys => k == l && same x y && sameFields xs ys
  | _, _ => false

end

end Json

end EventProcessing
