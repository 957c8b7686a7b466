import EventProcessing.Proofs.Json.Fields
import EventProcessing.UnitOfWork

namespace EventProcessing

namespace Json.Object

variable {base extra : Object} {data : List Object} {key : String}

lemma merge_merge_self : (base.merge extra).merge extra = base.merge extra :=
  ext fun key => by rw [get?_merge, get?_merge, ← Option.or_assoc, Option.or_self]

lemma foldl_merge_foldl_merge :
    data.foldl merge (data.foldl merge base) = data.foldl merge base :=
  ext fun key => by rw [get?_foldl_merge, get?_foldl_merge, ← Option.or_assoc, Option.or_self]

lemma get?_foldl_merge_of_last {before after : List Object} {part : Object} {value : Json}
    (hp : part.get? key = some value) (ha : ∀ later ∈ after, later.get? key = none) :
    ((before ++ part :: after).foldl merge base).get? key = some value := by
  have hnone : after.reverse.findSome? (fun later => later.get? key) = none := by
    simpa [List.findSome?_eq_none_iff] using ha
  rw [get?_foldl_merge, List.reverse_append, List.reverse_cons, List.append_assoc,
    List.findSome?_append, hnone]
  simp [hp]

lemma get?_foldl_merge_of_none (hn : ∀ part ∈ data, part.get? key = none) :
    (data.foldl merge base).get? key = base.get? key := by
  have hnone : data.reverse.findSome? (fun part => part.get? key) = none := by
    simpa [List.findSome?_eq_none_iff] using hn
  rw [get?_foldl_merge, hnone, Option.none_or]

lemma isSome_get?_foldl_merge : ((data.foldl merge base).get? key).isSome ↔
    (base.get? key).isSome ∨ ∃ part ∈ data, (part.get? key).isSome := by
  rw [get?_foldl_merge, Option.isSome_or, Bool.or_eq_true, List.findSome?_isSome_iff, or_comm]
  simp

end Json.Object

open Json

namespace EventMessage

variable {m : EventMessage} {data : List MetaData}

/-- The message `carrying` is `m` with these data attached, of which a later part wins over an
earlier one and over `m`. -/
structure Carries (m : EventMessage) (data : List MetaData) (carrying : EventMessage) : Prop where
  last : ∀ before part after key value, data = before ++ part :: after →
    part.get? key = some value → (∀ later ∈ after, later.get? key = none) →
      carrying.metadata.get? key = some value
  own : ∀ key, (∀ part ∈ data, part.get? key = none) →
    carrying.metadata.get? key = m.metadata.get? key
  keys : ∀ key, (carrying.metadata.get? key).isSome ↔
    (m.metadata.get? key).isSome ∨ ∃ part ∈ data, (part.get? key).isSome
  others : { carrying with metadata := m.metadata } = m

lemma foldl_withMetaData (m : EventMessage) (data : List MetaData) :
    data.foldl withMetaData m = { m with metadata := data.foldl Object.merge m.metadata } := by
  induction data generalizing m with
  | nil => rfl
  | cons part rest ih => exact ih (m.withMetaData part)

lemma carries_foldl : m.Carries data (data.foldl withMetaData m) := by
  rw [foldl_withMetaData]
  constructor
  case last =>
    rintro before part after key value rfl hp ha
    exact Object.get?_foldl_merge_of_last hp ha
  case own => exact fun key hn => Object.get?_foldl_merge_of_none hn
  case keys => exact fun key => Object.isSome_get?_foldl_merge
  case others => rfl

end EventMessage

namespace UnitOfWork

def registering (message : EventMessage) (data : List MetaData) : UnitOfWork :=
  data.foldl register { message }

lemma foldl_register (unit : UnitOfWork) (data : List MetaData) :
    data.foldl register unit =
      { unit with correlation := data.foldl Object.merge unit.correlation } := by
  induction data generalizing unit with
  | nil => rfl
  | cons part rest ih => exact ih (unit.register part)

theorem correlated_attaches_in_order (handled m : EventMessage) (data : List MetaData) :
    (registering handled data).correlated m = data.foldl EventMessage.withMetaData m ∧
    m.Carries data ((registering handled data).correlated m) ∧
    (registering handled data).correlated ((registering handled data).correlated m) =
      (registering handled data).correlated m ∧
    data.foldl register (registering handled data) = registering handled data := by
  have hunit : registering handled data = ⟨handled, data.foldl Object.merge .empty⟩ :=
    foldl_register { message := handled } data
  have hattached : (registering handled data).correlated m =
      data.foldl EventMessage.withMetaData m := by
    rw [hunit, EventMessage.foldl_withMetaData]
    exact congrArg (fun metadata => { m with metadata }) Object.merge_foldl_merge
  refine ⟨hattached, hattached ▸ EventMessage.carries_foldl, ?_, ?_⟩
  · rw [hunit]
    exact congrArg (fun metadata => { m with metadata }) Object.merge_merge_self
  · rw [hunit, foldl_register]
    exact congrArg (UnitOfWork.mk handled) Object.foldl_merge_foldl_merge

namespace Sample

def outgoing : EventMessage where
  identifier := "outgoing"
  payloadType := "Invoiced"
  payload := .null
  aggregateIdentifier := none
  metadata := .ofList [("tenant", .string "own"), ("trace", .string "own")]
  timestampMillis := 0

def overlapping : List MetaData :=
  [.ofList [("trace", .string "first"), ("user", .string "first")],
    .ofList [("trace", .string "second")]]

end Sample

theorem overlapping_attached_in_order :
    Sample.outgoing.Carries Sample.overlapping
      ((registering Sample.outgoing Sample.overlapping).correlated Sample.outgoing) ∧
    ((registering Sample.outgoing Sample.overlapping).correlated Sample.outgoing).metadata.fields =
      [("tenant", .string "own"), ("trace", .string "second"), ("user", .string "first")] := by
  obtain ⟨hattached, hcarries, -, -⟩ :=
    correlated_attaches_in_order Sample.outgoing Sample.outgoing Sample.overlapping
  exact ⟨hcarries, by rw [hattached]; rfl⟩

end UnitOfWork

end EventProcessing
