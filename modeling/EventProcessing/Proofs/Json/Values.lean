import EventProcessing.Proofs.Json.Fields
import EventProcessing.Proofs.Json.Lexemes

namespace EventProcessing.Json

variable {α ς : Type} {c : Char} {cs rest : List Char}

/-- What the reader makes of this text, whatever stands behind it. -/
def Reads (reader : Reader α) (text : List Char) (value : α) : Prop :=
  ∀ rest, EndsNumber rest → reader (text ++ rest) = .ok (value, rest)

lemma intercalate_comma_cons (text : List Char) (more : List (List Char)) :
    List.intercalate [','] (text :: more) = text ++ more.flatMap (',' :: ·) := by
  induction more generalizing text with
  | nil => simp
  | cons second more ih => rw [List.intercalate_cons_cons, ih, List.flatMap_cons]; simp

lemma length_le_flatMap_comma (texts : List (List Char)) :
    texts.length ≤ (texts.flatMap (',' :: ·)).length := by
  induction texts with
  | nil => exact le_rfl
  | cons text more ih =>
    rw [List.flatMap_cons, List.length_append, List.length_cons, List.length_cons]
    omega

lemma skipBlanks_cons (h : isBlank c = false) : skipBlanks (c :: cs) = c :: cs := by
  simp [skipBlanks, h]

section Elements

def Opens (text : List Char) : Prop :=
  ∃ c more, text = c :: more ∧ isBlank c = false ∧ c ≠ ']'

lemma nextElement_first (h : Opens cs) :
    nextElement true (cs ++ rest) = .ok (some (cs ++ rest)) := by
  obtain ⟨c, more, rfl, hblank, hclose⟩ := h
  simp [nextElement, skipBlanks_cons hblank]

lemma nextElement_comma (h : Opens cs) :
    nextElement false (',' :: (cs ++ rest)) = .ok (some (cs ++ rest)) := by
  obtain ⟨c, more, rfl, hblank, hclose⟩ := h
  have hcomma : skipBlanks (',' :: c :: (more ++ rest)) = ',' :: c :: (more ++ rest) := rfl
  simp [nextElement, hcomma, skipBlanks_cons hblank, hclose]

variable {element : Reader α} {write : α → List Char} {xs : List α}

lemma readElements_step {x : α} {first : Bool} {fuel : ℕ} {text more last : List Char}
    (hn : nextElement first cs = .ok (some text)) (he : element text = .ok (x, more))
    (hr : readElements element fuel false more = .ok (xs, last)) :
    readElements element (fuel + 1) first cs = .ok (x :: xs, last) := by
  rw [readElements, hn]
  change (element text >>= _) = _
  rw [he]
  change (readElements element fuel false more >>= _) = _
  rw [hr]
  rfl

lemma endsNumber_flatMap_comma (texts : List (List Char)) (hc : EndsNumber rest) :
    EndsNumber (texts.flatMap (',' :: ·) ++ rest) := by
  cases texts with
  | nil => exact hc
  | cons text more => exact endsNumber_cons (by decide)

lemma readElements_comma (h : ∀ x ∈ xs, Opens (write x) ∧ Reads element (write x) x) {fuel : ℕ}
    (hf : xs.length < fuel) :
    readElements element fuel false ((xs.map write).flatMap (',' :: ·) ++ ']' :: rest) =
      .ok (xs, ']' :: rest) := by
  have hclose : EndsNumber (']' :: rest) := endsNumber_cons (by decide)
  induction xs generalizing fuel with
  | nil =>
    obtain ⟨fuel, rfl⟩ := Nat.exists_eq_succ_of_ne_zero (by omega : fuel ≠ 0)
    rfl
  | cons x xs ih =>
    obtain ⟨fuel, rfl⟩ := Nat.exists_eq_succ_of_ne_zero (by omega : fuel ≠ 0)
    obtain ⟨hopens, hreads⟩ := h x List.mem_cons_self
    have hrest := ih (fun y hy => h y (List.mem_cons_of_mem _ hy)) (Nat.lt_of_succ_lt_succ hf)
    rw [List.map_cons, List.flatMap_cons, List.append_assoc, List.cons_append]
    exact readElements_step (nextElement_comma hopens)
      (hreads _ (endsNumber_flatMap_comma _ hclose)) hrest

lemma readList_intercalate (h : ∀ x ∈ xs, Opens (write x) ∧ Reads element (write x) x)
    (rest : List Char) :
    readList element (List.intercalate [','] (xs.map write) ++ ']' :: rest) = .ok (xs, rest) := by
  suffices hread : readElements element
      ((List.intercalate [','] (xs.map write) ++ ']' :: rest).length + 1) true
      (List.intercalate [','] (xs.map write) ++ ']' :: rest) = .ok (xs, ']' :: rest) by
    rw [readList, hread]
    rfl
  cases xs with
  | nil => rfl
  | cons x xs =>
    obtain ⟨hopens, hreads⟩ := h x List.mem_cons_self
    have hclose : EndsNumber (']' :: rest) := endsNumber_cons (by decide)
    rw [List.map_cons, intercalate_comma_cons, List.append_assoc]
    refine readElements_step (nextElement_first hopens)
      (hreads _ (endsNumber_flatMap_comma _ hclose))
      (readElements_comma (fun y hy => h y (List.mem_cons_of_mem _ hy)) ?_)
    have hlength := length_le_flatMap_comma (xs.map write)
    simp only [List.length_append, List.length_cons, List.length_map] at hlength ⊢
    omega

end Elements

section Members

def member (entry : String × List Char) : List Char := stringText entry.1 ++ ':' :: entry.2

lemma member_append (entry : String × List Char) (rest : List Char) :
    member entry ++ rest =
      '"' :: (entry.1.toList.flatMap escaped ++ '"' :: ':' :: (entry.2 ++ rest)) := by
  rw [member, List.append_assoc, stringText_append]
  rfl

lemma nextKey_first (entry : String × List Char) (rest : List Char) :
    nextKey true (member entry ++ rest) = .ok (some entry.1, ':' :: (entry.2 ++ rest)) := by
  rw [member_append]
  change (readString _).map _ = _
  rw [readString_flatMap_escaped]
  rfl

lemma nextKey_comma (entry : String × List Char) (rest : List Char) :
    nextKey false (',' :: (member entry ++ rest)) =
      .ok (some entry.1, ':' :: (entry.2 ++ rest)) := by
  rw [member_append]
  change (readString _).map _ = _
  rw [readString_flatMap_escaped]
  rfl

variable {field : ς → String → Except Fault (Reader ς)} {state next last : ς}
  {entries : List (String × List Char)}

/-- The reader of the fields takes these entries one after the other, each by its key and with the
text of its value. -/
inductive Takes (field : ς → String → Except Fault (Reader ς)) :
    ς → List (String × List Char) → ς → Prop
  | nil {state : ς} : Takes field state [] state
  | cons {state next last : ς} {key : String} {text : List Char} {value : Reader ς}
      {more : List (String × List Char)} (hf : field state key = .ok value)
      (hv : Reads value text next) (hm : Takes field next more last) :
      Takes field state ((key, text) :: more) last

lemma readFields_step {key : String} {text : List Char} {value : Reader ς} {first : Bool}
    {fuel : ℕ} {result : Except Fault (Front ς)}
    (hn : nextKey first cs = .ok (some key, ':' :: (text ++ rest)))
    (hf : field state key = .ok value) (hv : value (text ++ rest) = .ok (next, rest))
    (hr : readFields field fuel false next rest = result) :
    readFields field (fuel + 1) first state cs = result := by
  rw [readFields, hn]
  change (field state key >>= _) = _
  rw [hf]
  change (value (text ++ rest) >>= _) = _
  rw [hv]
  exact hr

lemma Takes.readFields (h : Takes field state entries last) {fuel : ℕ}
    (hf : entries.length < fuel) :
    Json.readFields field fuel false state
      ((entries.map member).flatMap (',' :: ·) ++ '\x7d' :: rest) = .ok (last, rest) := by
  have hclose : EndsNumber ('\x7d' :: rest) := endsNumber_cons (by decide)
  induction h generalizing fuel with
  | nil =>
    obtain ⟨fuel, rfl⟩ := Nat.exists_eq_succ_of_ne_zero (by omega : fuel ≠ 0)
    rfl
  | cons hfield hvalue _ ih =>
    obtain ⟨fuel, rfl⟩ := Nat.exists_eq_succ_of_ne_zero (by omega : fuel ≠ 0)
    rw [List.map_cons, List.flatMap_cons, List.append_assoc, List.cons_append]
    exact readFields_step (nextKey_comma _ _) hfield
      (hvalue _ (endsNumber_flatMap_comma _ hclose)) (ih (Nat.lt_of_succ_lt_succ hf))

theorem Takes.readObject (h : Takes field state entries last) (rest : List Char) :
    Json.readObject field state (List.intercalate [','] (entries.map member) ++ '\x7d' :: rest) =
      .ok (last, rest) := by
  cases h with
  | nil => rfl
  | @cons _ _ _ key text value more hfield hvalue hmore =>
    have hclose : EndsNumber ('\x7d' :: rest) := endsNumber_cons (by decide)
    rw [Json.readObject, List.map_cons, intercalate_comma_cons, List.append_assoc]
    refine readFields_step (nextKey_first _ _) hfield
      (hvalue _ (endsNumber_flatMap_comma _ hclose)) (hmore.readFields ?_)
    have hlength := length_le_flatMap_comma (more.map member)
    simp only [List.length_append, List.length_cons, List.length_map] at hlength ⊢
    omega

end Members

section Values

/-- All numbers are integers of 64 bits, with a sign or without, and the fields of an object are in
the order of their keys. -/
inductive Exact : Json → Prop
  | null : Exact .null
  | bool (value : Bool) : Exact (.bool value)
  | integer {n : ℤ} (hl : -2 ^ 63 ≤ n) (hu : n < 2 ^ 64) : Exact (.number (.integer n))
  | string (text : String) : Exact (.string text)
  | array {elements : List Json} (he : ∀ x ∈ elements, Exact x) : Exact (.array elements)
  | object {object : Object} (hf : ∀ entry ∈ object.fields, Exact entry.2) :
      Exact (.object object.fields)

mutual

def nesting : Json → ℕ
  | .array elements => nestingOfElements elements + 1
  | .object fields => nestingOfFields fields + 1
  | _ => 0

def nestingOfElements : List Json → ℕ
  | [] => 0
  | x :: rest => max x.nesting (nestingOfElements rest)

def nestingOfFields : List (String × Json) → ℕ
  | [] => 0
  | (_, x) :: rest => max x.nesting (nestingOfFields rest)

end

variable {value : Json} {elements : List Json} {fields : Fields} {depth : ℕ}

lemma nesting_le_of_mem {x : Json} (h : x ∈ elements) : x.nesting ≤ nestingOfElements elements := by
  induction elements with
  | nil => cases h
  | cons first rest ih =>
    rw [nestingOfElements]
    rcases List.mem_cons.mp h with rfl | h
    · exact le_max_left _ _
    · exact (ih h).trans (le_max_right _ _)

lemma nesting_le_of_mem_fields {entry : String × Json} (h : entry ∈ fields) :
    entry.2.nesting ≤ nestingOfFields fields := by
  induction fields with
  | nil => cases h
  | cons first rest ih =>
    rw [nestingOfFields]
    rcases List.mem_cons.mp h with rfl | h
    · exact le_max_left _ _
    · exact (ih h).trans (le_max_right _ _)

lemma elementsText_eq (elements : List Json) :
    elementsText elements = List.intercalate [','] (elements.map text) := by
  induction elements with
  | nil => rfl
  | cons x rest ih =>
    cases rest with
    | nil => simp [elementsText]
    | cons y rest =>
      rw [elementsText, ih]
      simp [List.intercalate_cons_cons]

lemma fieldsText_eq (fields : Fields) : fieldsText fields =
    List.intercalate [','] ((fields.map fun entry => (entry.1, entry.2.text)).map member) := by
  induction fields with
  | nil => rfl
  | cons first rest ih =>
    cases rest with
    | nil => simp [fieldsText, member]
    | cons second rest =>
      rw [fieldsText, ih]
      simp [List.intercalate_cons_cons, member]

lemma not_isBlank_of_isDigit (hc : c.isDigit = true) : isBlank c = false := by
  rw [Bool.eq_false_iff]
  intro hb
  simp only [isBlank, Bool.or_eq_true, decide_eq_true_eq] at hb
  obtain ((rfl | rfl) | rfl) | rfl := hb <;> exact absurd hc (by decide)

lemma opens_toDigits (n : ℕ) : Opens (Nat.toDigits 10 n) := by
  obtain ⟨c, more, hdigits, hc⟩ := toDigits_cons n
  refine ⟨c, more, hdigits, not_isBlank_of_isDigit hc, ?_⟩
  rintro rfl
  exact absurd hc (by decide)

lemma Exact.opens (h : value.Exact) : Opens value.text := by
  cases h with
  | null => exact ⟨'n', _, rfl, rfl, by decide⟩
  | bool value =>
    cases value with
    | true => exact ⟨'t', _, rfl, rfl, by decide⟩
    | false => exact ⟨'f', _, rfl, rfl, by decide⟩
  | @integer n hl hu =>
    cases n with
    | ofNat n => exact opens_toDigits n
    | negSucc n => exact ⟨'-', _, rfl, rfl, by decide⟩
  | string text => exact ⟨'"', _, rfl, rfl, by decide⟩
  | array he => exact ⟨'[', _, rfl, rfl, by decide⟩
  | object hf => exact ⟨'\x7b', _, rfl, rfl, by decide⟩

variable {list object : Reader Json}

lemma readWith_isDigit (hc : c.isDigit = true) : readWith list object (c :: cs) =
    (readNumber false (c :: cs)).map fun r => (.number r.1, r.2) := by
  rw [readWith, skipBlanks_cons (not_isBlank_of_isDigit hc)]
  split
  case h_1 heq => cases heq
  case h_9 heq => rw [← (List.cons.inj heq).1, ← (List.cons.inj heq).2, if_pos hc]
  -- All other cases are about a character that is no digit.
  all_goals
    next heq =>
      cases heq
      exact absurd hc (by decide)

lemma readWith_natural {n : ℕ} (h : n < 2 ^ 64) (hr : EndsNumber rest) :
    readWith list object (Nat.toDigits 10 n ++ rest) = .ok (.number (.integer n), rest) := by
  obtain ⟨c, more, hdigits, hc⟩ := toDigits_cons n
  have hread : readNumber false (Nat.toDigits 10 n ++ rest) = _ := readNumber_toDigits h hr
  rw [hdigits, List.cons_append] at hread ⊢
  rw [readWith_isDigit hc, hread]
  rfl

lemma readWith_negative {n : ℕ} (h : n + 1 ≤ 2 ^ 63) (hr : EndsNumber rest) :
    readWith list object ('-' :: (Nat.toDigits 10 (n + 1) ++ rest)) =
      .ok (.number (.integer (.negSucc n)), rest) := by
  have hlt : n + 1 < UInt64.size := by
    simp only [UInt64.size]
    omega
  change (readNumber true _).map _ = _
  rw [readNumber_toDigits hlt hr, integerOf, if_neg (by decide),
    if_pos ⟨Nat.succ_pos n, by rwa [Nat.one_shiftLeft]⟩]
  rfl

lemma readWith_scalar (list object : Reader Json) (h : value.Exact) (hn : value.nesting = 0) :
    Reads (readWith list object) value.text value := by
  intro rest hr
  cases h with
  | null => rfl
  | bool value => cases value <;> rfl
  | @integer n hl hu =>
    cases n with
    | ofNat n => exact readWith_natural (Int.ofNat_lt.mp hu) hr
    | negSucc n => exact readWith_negative (by omega) hr
  | string text =>
    rw [Json.text, stringText_append]
    change (readString _).map _ = _
    rw [readString_flatMap_escaped]
    rfl
  | array he => cases hn
  | object hf => cases hn

lemma takes_entries {reader : Reader Json} {before : Object} {after : Fields}
    (hs : Fields.Sorted (before.fields ++ after))
    (h : ∀ entry ∈ after, Reads reader entry.2.text entry.2) :
    Takes (entry reader) before (after.map fun entry => (entry.1, entry.2.text))
      ⟨before.fields ++ after, hs⟩ := by
  induction after generalizing before with
  | nil =>
    simp only [List.append_nil]
    exact .nil
  | cons first rest ih =>
    obtain ⟨key, value⟩ := first
    have hlt : ∀ entry ∈ before.fields, entry.1 < key := fun entry he =>
      (List.pairwise_append.mp hs).2.2 entry he _ List.mem_cons_self
    have hput : (before.put key value).fields = before.fields ++ [(key, value)] :=
      Fields.put_of_forall_lt value hlt
    have hvalue : Reads (fun cs => (reader cs).map fun r => (before.put key r.1, r.2)) value.text
        (before.put key value) := by
      intro text ht
      dsimp only
      rw [h (key, value) List.mem_cons_self text ht, Except.map]
    have hsorted : Fields.Sorted ((before.put key value).fields ++ rest) := by
      rwa [hput, List.append_assoc]
    have hrest := ih hsorted fun entry he => h entry (List.mem_cons_of_mem _ he)
    simp only [hput, List.append_assoc, List.singleton_append] at hrest
    exact .cons rfl hvalue hrest

lemma readObject_fieldsText {reader : Reader Json} {object : Object}
    (h : ∀ entry ∈ object.fields, Reads reader entry.2.text entry.2) (rest : List Char) :
    readObject (entry reader) .empty (fieldsText object.fields ++ '\x7d' :: rest) =
      .ok (object, rest) := by
  have hsorted : Fields.Sorted (Object.empty.fields ++ object.fields) := object.sorted
  have htakes : Takes (entry reader) .empty _ object := takes_entries hsorted h
  rw [fieldsText_eq]
  exact htakes.readObject rest

theorem readValue_text (depth : ℕ) {value : Json} (h : value.Exact) (hn : value.nesting ≤ depth) :
    Reads (readValue depth) value.text value := by
  induction depth generalizing value with
  | zero => exact readWith_scalar _ _ h (Nat.le_zero.mp hn)
  | succ depth ih =>
    cases h with
    | @array elements he =>
      rw [nesting, Nat.succ_le_succ_iff] at hn
      intro rest _
      have hread := readList_intercalate
        (fun x hx => ⟨(he x hx).opens, ih (he x hx) ((nesting_le_of_mem hx).trans hn)⟩) rest
      rw [text, elementsText_eq, List.append_assoc, List.cons_append, List.singleton_append]
      change (readList _ _).map _ = _
      rw [hread]
      rfl
    | @object object hf =>
      rw [nesting, Nat.succ_le_succ_iff] at hn
      intro rest _
      have hread := readObject_fieldsText
        (fun entry hm => ih (hf entry hm) ((nesting_le_of_mem_fields hm).trans hn)) rest
      rw [text, List.append_assoc, List.cons_append, List.singleton_append]
      change (readObject _ _ _).map _ = _
      rw [hread]
      rfl
    | null | bool | integer | string =>
      exact readWith_scalar _ _ (by constructor <;> assumption) rfl

end Values

end EventProcessing.Json
