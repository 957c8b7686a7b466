import EventProcessing.Message.Codec
import EventProcessing.Proofs.Json.Values

namespace EventProcessing

namespace Json

variable {α ς : Type} {rest : List Char} {reader : Reader α}

lemma Takes.once {field : ς → String → Except Fault (Reader ς)} {state last : ς}
    {key name : String} {text : List Char} {more : List (String × List Char)} {value : α}
    {earlier : Option α} {enter : α → ς}
    (hf : field state key = onceField name earlier reader enter) (he : earlier = none)
    (hv : Reads reader text value) (hm : Takes field (enter value) more last) :
    Takes field state ((key, text) :: more) last := by
  subst he
  refine .cons hf (fun rest hr => ?_) hm
  rw [hv rest hr]
  rfl

lemma readStringValue_stringText (text : String) :
    Reads readStringValue (stringText text) text := by
  intro rest _
  rw [stringText_append]
  exact readString_flatMap_escaped text rest

lemma readOptional_text (text : Option String) :
    Reads (readOptional readStringValue) (text.elim Json.null Json.string).text text := by
  intro rest hr
  cases text with
  | none => rfl
  | some text =>
    change readOptional readStringValue (stringText text ++ rest) = _
    have hread := readStringValue_stringText text rest hr
    rw [stringText_append] at hread ⊢
    change (readStringValue _).map _ = _
    rw [hread]
    rfl

lemma naturalOf_natCast {n bound : ℕ} (expected : String) (h : n < bound) :
    naturalOf expected bound (.integer n) = .ok n :=
  if_pos ⟨Int.natCast_nonneg n, Int.ofNat_lt.mpr h⟩

lemma readNatural_naturalText {n bound : ℕ} (expected : String) (h : n < UInt64.size)
    (hb : n < bound) : Reads (readNatural expected bound) (naturalText n) n := by
  intro rest hr
  obtain ⟨c, more, hdigits, hc⟩ := toDigits_cons n
  have hread : readNumber false (Nat.toDigits 10 n ++ rest) = _ := readNumber_toDigits h hr
  rw [hdigits, List.cons_append] at hread
  rw [naturalText, hdigits, List.cons_append, readNatural,
    skipBlanks_cons (not_isBlank_of_isDigit hc)]
  split
  case h_1 heq => cases heq
  case h_2 heq =>
    cases heq
    exact absurd hc (by decide)
  case h_3 heq =>
    rw [← (List.cons.inj heq).1, ← (List.cons.inj heq).2, if_pos hc, hread]
    change (naturalOf expected bound (.integer n) >>= _) = _
    rw [naturalOf_natCast expected hb]
    rfl

lemma readWord64_naturalText {n : ℕ} (h : n < UInt64.size) :
    Reads readWord64 (naturalText n) n :=
  readNatural_naturalText "u64" h h

lemma readMap_text {depth : ℕ} {object : Object} (h : ∀ entry ∈ object.fields, entry.2.Exact)
    (hn : (Json.object object.fields).nesting ≤ depth) :
    Reads (readMap depth) (Json.object object.fields).text object := by
  intro rest _
  obtain ⟨depth, rfl⟩ := Nat.exists_eq_succ_of_ne_zero
    (Nat.one_le_iff_ne_zero.mp (le_trans (by rw [nesting]; omega) hn))
  rw [nesting, Nat.succ_le_succ_iff] at hn
  rw [text, List.append_assoc, List.cons_append, List.singleton_append]
  exact readObject_fieldsText
    (fun entry hm => readValue_text depth (h entry hm) ((nesting_le_of_mem_fields hm).trans hn))
    rest

lemma RecordShape.read_recordText {shape : RecordShape ς α} {depth : ℕ}
    {entries : List (String × List Char)} {last : ς} {value : α}
    (h : Takes (shape.field depth) shape.start entries last)
    (hf : shape.finish last = .ok value) :
    Reads (shape.read (depth + 1)) (recordText entries) value := by
  intro rest _
  rw [recordText, List.append_assoc, List.cons_append, List.singleton_append]
  change (readObject (shape.field depth) shape.start
    (List.intercalate [','] (entries.map member) ++ '\x7d' :: rest) >>= _) = _
  rw [h.readObject rest]
  change (shape.finish last >>= _) = _
  rw [hf]
  rfl

lemma readWhole_ofList {text : List Char} {value : α} (h : Reads reader text value) :
    readWhole reader (String.ofList text) = .ok value := by
  have hread := h [] (by rintro _ ⟨⟩)
  rw [List.append_nil] at hread
  rw [readWhole, String.toList_ofList, hread]
  rfl

end Json

open Json

structure EventMessage.Exact (m : EventMessage) : Prop where
  payload : m.payload.Exact
  metadata : ∀ entry ∈ m.metadata.fields, entry.2.Exact
  timestamp : m.timestampMillis < UInt64.size

def EventMessage.nesting (m : EventMessage) : ℕ :=
  max m.payload.nesting (Json.object m.metadata.fields).nesting + 1

structure TrackedEvent.Exact (t : TrackedEvent) : Prop where
  token : t.token < UInt64.size
  message : t.message.Exact

def TrackedEvent.nesting (t : TrackedEvent) : ℕ := t.message.nesting + 1

section Messages

variable {m : EventMessage} {t : TrackedEvent} {depth : ℕ}

lemma EventMessage.read_text (h : m.Exact) (hn : m.nesting ≤ depth) :
    Reads (EventMessage.shape.read depth) m.text m := by
  obtain ⟨depth, rfl⟩ := Nat.exists_eq_succ_of_ne_zero
    (Nat.one_le_iff_ne_zero.mp (le_trans (by rw [nesting]; omega) hn))
  rw [nesting, Nat.succ_le_succ_iff, max_le_iff] at hn
  refine RecordShape.read_recordText
    (?_ : Takes (Draft.field depth) {} _ { identifier := some m.identifier
                                           payloadType := some m.payloadType
                                           payload := some m.payload
                                           aggregateIdentifier := some m.aggregateIdentifier
                                           metadata := some m.metadata
                                           timestampMillis := some m.timestampMillis }) rfl
  refine .once (by rw [Draft.field]) rfl (readStringValue_stringText m.identifier) ?_
  refine .once (by rw [Draft.field]) rfl (readStringValue_stringText m.payloadType) ?_
  refine .once (by rw [Draft.field]) rfl (readValue_text depth h.payload hn.1) ?_
  refine .once (by rw [Draft.field]) rfl (readOptional_text m.aggregateIdentifier) ?_
  refine .once (by rw [Draft.field]) rfl (readMap_text h.metadata hn.2) ?_
  exact .once (by rw [Draft.field]) rfl (readWord64_naturalText h.timestamp) .nil

lemma TrackedEvent.read_text (h : t.Exact) (hn : t.nesting ≤ depth) :
    Reads (TrackedEvent.shape.read depth) t.text t := by
  obtain ⟨depth, rfl⟩ := Nat.exists_eq_succ_of_ne_zero
    (Nat.one_le_iff_ne_zero.mp (le_trans (by rw [nesting]; omega) hn))
  rw [nesting, Nat.succ_le_succ_iff] at hn
  refine RecordShape.read_recordText
    (?_ : Takes (Draft.field depth) {} _ { token := some t.token
                                           message := some t.message }) rfl
  refine .once (by rw [Draft.field]) rfl (readWord64_naturalText h.token) ?_
  exact .once (by rw [Draft.field]) rfl (EventMessage.read_text h.message hn) .nil

theorem encodings_read_back :
    (∀ m : EventMessage, m.Exact → m.nesting ≤ depthLimit →
      EventMessage.decode? m.encode = .ok m) ∧
    (∀ t : TrackedEvent, t.Exact → t.nesting ≤ depthLimit →
      TrackedEvent.decode? t.encode = .ok t) ∧
    Set.InjOn EventMessage.encode {m | m.Exact ∧ m.nesting ≤ depthLimit} ∧
    Set.InjOn TrackedEvent.encode {t | t.Exact ∧ t.nesting ≤ depthLimit} := by
  have hmessage : ∀ m : EventMessage, m.Exact → m.nesting ≤ depthLimit →
      EventMessage.decode? m.encode = .ok m :=
    fun m h hn => readWhole_ofList (EventMessage.read_text h hn)
  have htracked : ∀ t : TrackedEvent, t.Exact → t.nesting ≤ depthLimit →
      TrackedEvent.decode? t.encode = .ok t :=
    fun t h hn => readWhole_ofList (TrackedEvent.read_text h hn)
  refine ⟨hmessage, htracked, fun m hm m' hm' heq => ?_, fun t ht t' ht' heq => ?_⟩
  · have h := hmessage m hm.1 hm.2
    rw [heq, hmessage m' hm'.1 hm'.2] at h
    exact (Except.ok.inj h).symm
  · have h := htracked t ht.1 ht.2
    rw [heq, htracked t' ht'.1 ht'.2] at h
    exact (Except.ok.inj h).symm

end Messages

namespace Sample

def nestedList (innermost : Json) : ℕ → Json
  | 0 => innermost
  | depth + 1 => .array [nestedList innermost depth]

variable {innermost : Json} (depth : ℕ)

lemma exact_nestedList (h : innermost.Exact) : (nestedList innermost depth).Exact := by
  induction depth with
  | zero => exact h
  | succ depth ih => exact .array fun x hx => List.mem_singleton.mp hx ▸ ih

lemma nesting_nestedList : (nestedList innermost depth).nesting = innermost.nesting + depth := by
  induction depth with
  | zero => rfl
  | succ depth ih =>
    rw [nestedList, Json.nesting, nestingOfElements, nestingOfElements, ih]
    omega

def extremes : Json.Object where
  fields := [("", .number (.integer (-2 ^ 63))), ("\x00\x1f\x7f", .string "\r\n\té\u2028"),
    ("\"\\", .number (.integer (2 ^ 64 - 1)))]
  sorted := by decide

def strange : EventMessage where
  identifier := "\x08\x0c/\x5cu0041"
  payloadType := ""
  payload := nestedList (.object extremes.fields) 124
  aggregateIdentifier := some ""
  metadata :=
    ⟨[("a\"b", .null), ("é", .array [.bool true, .number (.integer 0)])], by decide⟩
  timestampMillis := 2 ^ 64 - 1

lemma exact_extremes : (Json.object extremes.fields).Exact := by
  refine .object fun entry he => ?_
  simp only [extremes, List.mem_cons, List.not_mem_nil, or_false] at he
  rcases he with rfl | rfl | rfl
  · exact .integer (by decide) (by decide)
  · exact .string _
  · exact .integer (by decide) (by decide)

lemma exact_strange : strange.Exact where
  payload := exact_nestedList 124 exact_extremes
  metadata := by
    intro entry he
    simp only [strange, List.mem_cons, List.not_mem_nil, or_false] at he
    rcases he with rfl | rfl
    · exact .null
    · refine .array fun x hx => ?_
      simp only [List.mem_cons, List.not_mem_nil, or_false] at hx
      rcases hx with rfl | rfl
      · exact .bool true
      · exact .integer (by decide) (by decide)
  timestamp := by decide

lemma nesting_strange : strange.nesting = 126 := by
  rw [EventMessage.nesting, strange, nesting_nestedList]
  rfl

theorem strange_read_back :
    (⟨0, strange⟩ : TrackedEvent).nesting = depthLimit ∧
    EventMessage.decode? strange.encode = .ok strange ∧
    TrackedEvent.decode? (⟨0, strange⟩ : TrackedEvent).encode = .ok ⟨0, strange⟩ ∧
    { strange with aggregateIdentifier := none }.encode ≠ strange.encode := by
  have hlimit : (⟨0, strange⟩ : TrackedEvent).nesting = depthLimit := by
    rw [TrackedEvent.nesting, nesting_strange]
    rfl
  have hstrange : strange.nesting ≤ depthLimit := nesting_strange.trans_le (by decide)
  obtain ⟨hmessage, htracked, hinj, -⟩ := encodings_read_back
  refine ⟨hlimit, hmessage strange exact_strange hstrange,
    htracked _ ⟨by decide, exact_strange⟩ hlimit.le, fun heq => ?_⟩
  have habsent : EventMessage.Exact { strange with aggregateIdentifier := none } :=
    ⟨exact_strange.payload, exact_strange.metadata, exact_strange.timestamp⟩
  have hsame := hinj ⟨habsent, hstrange⟩ ⟨exact_strange, hstrange⟩ heq
  cases congrArg EventMessage.aggregateIdentifier hsame

end Sample

end EventProcessing
