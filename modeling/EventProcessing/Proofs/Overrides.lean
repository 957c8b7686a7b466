import EventProcessing.Inquiry
import EventProcessing.Proofs.Execution
import EventProcessing.Proofs.Tables

/-! What is resolved for a key is held from then on: by the component that serves the key, whatever
else is asked. Only a reset lets go of it, and nothing but a registration changes what a reset
leaves. -/

namespace EventProcessing

variable {σ α β : Type} {depth : ℕ} {s s' : System σ} {c : Configuration σ}

lemma System.run_bind_of {p : Program σ α} {f : α → Program σ β} {value : α}
    (h : System.run depth p s = some (value, s')) :
    System.run depth (p >>= f) s = System.run depth (f value) s' := by
  rw [System.run, System.execute_bind]
  exact (congrArg (Option.bind · _) h).trans rfl

lemma Part.resolve_cases {part part' : Part σ α} {value : α}
    (h : System.run depth (part.resolve c) s = some ((value, part'), s')) :
    part' = { part with built := some value } ∧
      ∀ old, part.built = some old → value = old ∧ s' = s := by
  obtain ⟨name, factory, built⟩ := part
  cases built with
  | some old =>
    cases h
    exact ⟨rfl, fun _ ho => ⟨Option.some.inj ho, rfl⟩⟩
  | none =>
    refine ⟨?_, fun _ ho => by cases ho⟩
    obtain ⟨⟨answer, kept⟩, middle, hget, h⟩ := System.run_bind_eq_some.mp h
    obtain ⟨_, _, -, hget⟩ := System.run_bind_eq_some.mp hget
    obtain ⟨result, _, -, hget⟩ := System.run_bind_eq_some.mp hget
    cases result with
    | error impossible => nomatch impossible
    | ok made =>
      cases hget
      cases h
      rfl

lemma Part.resolve_of_built {part : Part σ α} {value : α} (h : part.built = some value) :
    System.run depth (part.resolve c) s = some ((value, part), s) := by
  obtain ⟨name, factory, built⟩ := part
  cases h
  rfl

namespace OverrideTable

variable {table : OverrideTable σ α} {key other : String} {value old : α}

def keep (table : OverrideTable σ α) (key : String) (value : α) : OverrideTable σ α :=
  match table.keyed.get? key with
  | some part =>
    { table with keyed := table.keyed.put key { part with built := some value } }
  | none => { table with default := { table.default with built := some value } }

lemma serving_keep_self :
    (table.keep key value).serving key = { table.serving key with built := some value } := by
  unfold keep serving
  cases h : table.keyed.get? key with
  | some part => simp
  | none => simp [h]

lemma reset_keep : (table.keep key value).reset = table.reset := by
  unfold keep
  cases h : table.keyed.get? key with
  | none => rfl
  | some part =>
    have hkeyed : (table.keyed.put key { part with built := some value }).mapValues
        Component.reset = table.keyed.mapValues Component.reset := by
      rw [Table.mapValues_put]
      refine Table.put_of_get? ?_
      rw [Table.get?_mapValues, h]
      rfl
    exact congrArg (fun keyed => { table with keyed, default := table.default.reset }) hkeyed

lemma built_serving_keep (hk : ∀ old, (table.serving key).built = some old → value = old)
    (h : (table.serving other).built = some old) :
    ((table.keep key value).serving other).built = some old := by
  by_cases ho : other = key
  · subst ho
    rw [serving_keep_self, hk old h]
  · unfold keep
    unfold serving at h hk ⊢
    cases hget : table.keyed.get? key with
    | some part =>
      dsimp only
      rwa [Table.get?_put_of_ne _ _ ho]
    | none =>
      dsimp only
      rw [hget] at hk
      cases hother : table.keyed.get? other with
      | some part =>
        rw [hother] at h
        exact h
      | none =>
        rw [hother] at h
        rw [hk old h]
        rfl

lemma keep_of_built (h : (table.serving key).built = some value) :
    table.keep key value = table := by
  unfold keep
  unfold serving at h
  cases hget : table.keyed.get? key with
  | some part =>
    rw [hget] at h
    obtain ⟨name, factory, built⟩ := part
    cases h
    dsimp only
    rw [Table.put_of_get? hget]
  | none =>
    rw [hget] at h
    obtain ⟨axis, keyed, name, factory, built⟩ := table
    cases h
    rfl

lemma resolve_cases {table' : OverrideTable σ α}
    (h : System.run depth (table.resolve key c) s = some ((value, table'), s')) :
    table' = table.keep key value ∧
      ∀ old, (table.serving key).built = some old → value = old ∧ s' = s := by
  unfold resolve at h
  unfold keep serving
  cases hget : table.keyed.get? key with
  | some part =>
    rw [hget] at h
    obtain ⟨⟨made, kept⟩, middle, hpart, h⟩ := System.run_bind_eq_some.mp h
    obtain ⟨rfl, hold⟩ := Part.resolve_cases hpart
    cases h
    exact ⟨rfl, hold⟩
  | none =>
    rw [hget] at h
    obtain ⟨⟨made, kept⟩, middle, hpart, h⟩ := System.run_bind_eq_some.mp h
    obtain ⟨rfl, hold⟩ := Part.resolve_cases hpart
    cases h
    exact ⟨rfl, hold⟩

lemma resolve_of_built (h : (table.serving key).built = some value) :
    System.run depth (table.resolve key c) s = some ((value, table), s) := by
  have hkeep := keep_of_built h
  unfold keep at hkeep
  unfold serving at h
  unfold resolve
  cases hget : table.keyed.get? key with
  | some part =>
    rw [hget] at h hkeep
    refine (System.run_bind_of (Part.resolve_of_built h)).trans ?_
    exact congrArg (fun keyed => some ((value, { table with keyed }), s)) (Table.put_of_get? hget)
  | none =>
    rw [hget] at h
    exact System.run_bind_of (Part.resolve_of_built h)

end OverrideTable

namespace Overrides

variable {o o' : Overrides σ} {axis : Axis} {key : String} {value : axis.Value σ}

def Holds (o : Overrides σ) (axis : Axis) (key : String) (value : axis.Value σ) : Prop :=
  ((o.table axis).serving key).built = some value

structure Settles (o o' : Overrides σ) : Prop where
  reset : o'.reset = o.reset
  holds : ∀ {axis key value}, o.Holds axis key value → o'.Holds axis key value

lemma Settles.refl (o : Overrides σ) : Settles o o := ⟨rfl, id⟩

lemma Settles.trans {middle : Overrides σ} (h : Settles o middle) (h' : Settles middle o') :
    Settles o o' :=
  ⟨h'.reset.trans h.reset, fun hv => h'.holds (h.holds hv)⟩

lemma setTable_table (o : Overrides σ) (axis : Axis) : o.setTable axis (o.table axis) = o := by
  have htable : (fun other => if h : axis = other then h ▸ o.table axis else o.table other) =
      o.table := by
    funext other
    split
    · next h =>
      subst h
      rfl
    · rfl
  exact congrArg (fun table => { o with table }) htable

lemma settles_setTable {table : OverrideTable σ (axis.Value σ)}
    (hreset : table.reset = (o.table axis).reset)
    (hholds : ∀ key value, o.Holds axis key value → (table.serving key).built = some value) :
    Settles o (o.setTable axis table) := by
  constructor
  · have htable : (fun other => ((o.setTable axis table).table other).reset) =
        fun other => (o.table other).reset := by
      funext other
      by_cases h : other = axis
      · subst h
        rw [table_setTable_self, hreset]
      · rw [table_setTable_of_ne _ _ h]
    exact congrArg (fun table => ({ o.reset with table } : Overrides σ)) htable
  · intro other key value h
    unfold Holds
    by_cases ho : other = axis
    · subst ho
      rw [table_setTable_self]
      exact hholds key value h
    · rwa [table_setTable_of_ne _ _ ho]

lemma resolve_cases (h : System.run depth (resolve axis key c o) s = some ((value, o'), s')) :
    Settles o o' ∧ o'.Holds axis key value := by
  obtain ⟨⟨made, table⟩, middle, htable, h⟩ := System.run_bind_eq_some.mp h
  cases h
  obtain ⟨rfl, hold⟩ := OverrideTable.resolve_cases htable
  constructor
  · exact settles_setTable OverrideTable.reset_keep fun key value =>
      OverrideTable.built_serving_keep fun old ho => (hold old ho).1
  · unfold Holds
    rw [table_setTable_self, OverrideTable.serving_keep_self]

lemma resolve_of_holds (h : o.Holds axis key value) :
    System.run depth (resolve axis key c o) s = some ((value, o), s) := by
  refine (System.run_bind_of (OverrideTable.resolve_of_built h)).trans ?_
  exact congrArg (fun o => some ((value, o), s)) (setTable_table o axis)

lemma settles_of_sharedSagaStore {store : SagaStore}
    (h : System.run depth (sharedSagaStore c o) s = some ((store, o'), s')) : Settles o o' := by
  obtain ⟨⟨made, part⟩, middle, hpart, h⟩ := System.run_bind_eq_some.mp h
  cases h
  obtain ⟨rfl, -⟩ := Part.resolve_cases hpart
  exact ⟨rfl, id⟩

def monitorsOf (o : Overrides σ) (c : Configuration σ) (name : String) : MonitorLookup σ :=
  match o.monitorFactories.get? name with
  | some factory => factory c
  | none => c.monitors

lemma Settles.monitorsOf_eq (h : Settles o o') (c : Configuration σ) (name : String) :
    o'.monitorsOf c name = o.monitorsOf c name := by
  have hreset := congrArg Overrides.monitorFactories h.reset
  have hfactories : o'.monitorFactories = o.monitorFactories := hreset
  rw [monitorsOf, hfactories, monitorsOf]

lemma messageMonitor_cases {componentType name : String} {monitor : MessageMonitor σ}
    (h : System.run depth (messageMonitor c componentType name o) s = some ((monitor, o'), s')) :
    o' = o ∧
      System.run depth (o.monitorsOf c name componentType name) s = some (monitor, s') := by
  obtain ⟨_, _, hlookup, h⟩ := System.run_bind_eq_some.mp h
  cases h
  exact ⟨rfl, hlookup⟩

lemma settles_of_messageMonitor {componentType name : String} {monitor : MessageMonitor σ}
    (h : System.run depth (messageMonitor c componentType name o) s = some ((monitor, o'), s')) :
    Settles o o' := by
  obtain ⟨rfl, -⟩ := messageMonitor_cases h
  exact .refl _

end Overrides

end EventProcessing
