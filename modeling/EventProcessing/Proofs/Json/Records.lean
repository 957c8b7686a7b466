import EventProcessing.Proofs.Json.Lenient

namespace EventProcessing.Json

def NamedMember (entry : String × List Char) (text : List Char) : Prop :=
  ∃ body, Spells body entry.1.toList ∧ MemberText (body, entry.2) text

def ObjectText (entries : List (String × List Char)) (text : List Char) : Prop :=
  ∃ inside, Enclosed NamedMember entries inside ∧ text = '\x7b' :: (inside ++ ['\x7d'])

variable {α ς : Type} {entry : String × List Char} {entries : List (String × List Char)}
  {key name : String} {text inside before front rest rest' body cs : List Char}
  {reader : Reader α} {value : α} {field : ς → String → Except Fault (Reader ς)}
  {state next last : ς}

section Layout

def Admits (field : ς → String → Except Fault (Reader ς)) (entry : String × List Char) : Prop :=
  ∀ state reader, field state entry.1 = .ok reader → Lenient reader entry.2

def separator : Bool → List Char
  | true => []
  | false => [',']

lemma nextKey_afterComma (cs : List Char) : nextKey false (',' :: cs) =
    match skipBlanks cs with
    | [] => .error .endInValue
    | '"' :: rest => (readString rest).map fun r => (some r.1, r.2)
    | '\x7d' :: _ => .error .trailingComma
    | _ => .error .keyNotString := rfl

lemma nextKey_spells (first : Bool) (hb : Blank before) (h : Spells body name.toList)
    (rest : List Char) :
    nextKey first (separator first ++ (before ++ '"' :: (body ++ '"' :: rest))) =
      .ok (some name, rest) := by
  cases first with
  | true =>
    rw [separator, List.nil_append, nextKey_member hb, readString_spells h]
    rfl
  | false =>
    rw [separator, List.singleton_append, nextKey_afterComma, skipBlanks_append hb,
      skipBlanks_cons (by decide)]
    change (readString _).map _ = _
    rw [readString_spells h]
    rfl

lemma readFields_padded {fuel : ℕ} (hf : Blank front) :
    readFields field fuel false state (front ++ cs) = readFields field fuel false state cs := by
  cases fuel with
  | zero => rfl
  | succ fuel => rw [readFields, readFields, nextKey, nextKey, skipBlanks_append hf]

lemma readFields_step_iff {first : Bool} {fuel : ℕ} {final : List Char}
    (h : NamedMember entry text) (ha : Admits field entry) (hr : EndsNumber rest)
    (hrest : ∀ next, readFields field fuel false next rest = .ok (last, rest') ↔
      Takes field next entries last ∧ rest' = final) :
    readFields field (fuel + 1) first state (separator first ++ (text ++ rest)) =
      .ok (last, rest') ↔ Takes field state (entry :: entries) last ∧ rest' = final := by
  obtain ⟨body, hspells, before, behind, front, after, hb, hbehind, hf, hafter, rfl⟩ := h
  have hread : readFields field (fuel + 1) first state (separator first ++ (before ++ '"' ::
      (body ++ '"' :: (behind ++ ':' :: (front ++ (entry.2 ++ after)))) ++ rest)) =
      field state entry.1 >>= fun reader => reader (front ++ (entry.2 ++ (after ++ rest))) >>=
        fun r => readFields field fuel false r.1 r.2 := by
    have hkey := nextKey_spells first hb hspells
      (behind ++ ':' :: (front ++ (entry.2 ++ (after ++ rest))))
    have hcolon := readColon_append hbehind (front ++ (entry.2 ++ (after ++ rest)))
    simp only [List.append_assoc, List.cons_append] at hkey ⊢
    rw [readFields, hkey]
    change (field state entry.1 >>= fun reader => readColon _ >>= _) = _
    rw [hcolon]
    rfl
  have hend := hafter.endsNumber hr
  rw [hread]
  cases hfield : field state entry.1 with
  | error fault =>
    constructor
    · rintro ⟨⟩
    · rintro ⟨_ | ⟨hfield', _, _⟩, _⟩
      rw [hfield] at hfield'
      cases hfield'
  | ok reader =>
    obtain ⟨hsettles, hpadded⟩ := ha state reader hfield
    change (reader (front ++ (entry.2 ++ (after ++ rest))) >>= _) = _ ↔ _
    rw [hpadded front _ hf hend]
    rcases hsettles with ⟨next, hnext⟩ | hrefuses
    · rw [hnext _ hend]
      change readFields field fuel false next (after ++ rest) = _ ↔ _
      rw [readFields_padded hafter, hrest]
      refine and_congr_left fun _ => ⟨fun hm => .cons hfield hnext hm, ?_⟩
      rintro (_ | ⟨hfield', hnext', hm⟩)
      cases hfield.symm.trans hfield'
      rwa [hnext.unique hnext']
    · obtain ⟨fault, hfault⟩ := hrefuses _ hend
      rw [hfault]
      constructor
      · rintro ⟨⟩
      · rintro ⟨_ | ⟨hfield', hnext', _⟩, _⟩
        cases hfield.symm.trans hfield'
        exact absurd hnext' hrefuses.not_reads

lemma takes_nil : Takes field state [] last ↔ last = state :=
  ⟨fun h => by cases h; rfl, fun h => h ▸ .nil⟩

lemma Separated.length_le {β : Type} {item : β → List Char → Prop} {all : List β}
    (h : Separated item all text) : all.length ≤ text.length + 1 := by
  induction h with
  | last => simp
  | more _ _ ih =>
    simp only [List.length_cons, List.length_append]
    omega

lemma Separated.readFields_iff (h : Separated NamedMember entries inside)
    (ha : ∀ entry ∈ entries, Admits field entry) (first : Bool) {fuel : ℕ}
    (hf : entries.length < fuel) :
    readFields field fuel first state (separator first ++ (inside ++ '\x7d' :: rest)) =
      .ok (last, rest') ↔ Takes field state entries last ∧ rest' = rest := by
  have hends {c : Char} (hc : c = ',' ∨ c = '\x7d') (rest : List Char) :
      EndsNumber (c :: rest) := by
    apply endsNumber_cons
    obtain rfl | rfl := hc <;> decide
  induction h generalizing first fuel state with
  | last hm =>
    obtain ⟨fuel, rfl⟩ : ∃ n, fuel = n + 1 + 1 :=
      ⟨fuel - 2, by rw [List.length_singleton] at hf; omega⟩
    refine readFields_step_iff hm (ha _ List.mem_cons_self) (hends (.inr rfl) rest) fun next => ?_
    change Except.ok (next, rest) = .ok (last, rest') ↔ _
    rw [Except.ok.injEq, Prod.mk.injEq, takes_nil, eq_comm, eq_comm (a := rest)]
  | more hm hs ih =>
    obtain ⟨fuel, rfl⟩ := Nat.exists_eq_succ_of_ne_zero (by omega : fuel ≠ 0)
    rw [List.append_assoc, List.cons_append]
    exact readFields_step_iff hm (ha _ List.mem_cons_self) (hends (.inl rfl) _) fun next =>
      ih (fun entry he => ha entry (List.mem_cons_of_mem _ he))
        false (Nat.lt_of_succ_lt_succ hf)

lemma readObject_iff (h : Enclosed NamedMember entries inside)
    (ha : ∀ entry ∈ entries, Admits field entry) :
    readObject field state (inside ++ '\x7d' :: rest) = .ok (last, rest') ↔
      Takes field state entries last ∧ rest' = rest := by
  cases h with
  | empty hb =>
    have hread : readObject field state (inside ++ '\x7d' :: rest) = .ok (state, rest) := by
      rw [readObject, readFields, nextKey, skipBlanks_append hb]
      rfl
    rw [hread, Except.ok.injEq, Prod.mk.injEq, takes_nil, eq_comm, eq_comm (a := rest)]
  | items hs =>
    refine hs.readFields_iff ha true ?_
    have hlength := hs.length_le
    simp only [List.length_append, List.length_cons]
    omega

variable {shape : RecordShape ς α} {depth : ℕ}

lemma ObjectText.read_iff (h : ObjectText entries text)
    (ha : ∀ entry ∈ entries, Admits (shape.field depth) entry) :
    shape.read (depth + 1) (text ++ rest) = .ok (value, rest') ↔
      (∃ last, Takes (shape.field depth) shape.start entries last ∧
        shape.finish last = .ok value) ∧ rest' = rest := by
  obtain ⟨inside, hinside, rfl⟩ := h
  rw [List.cons_append, List.append_assoc, List.singleton_append]
  change (readObject (shape.field depth) shape.start (inside ++ '\x7d' :: rest) >>= fun r =>
    shape.finish r.1 >>= fun value => .ok (value, r.2)) = _ ↔ _
  constructor
  · intro h
    cases hobject : readObject (shape.field depth) shape.start (inside ++ '\x7d' :: rest) with
    | error fault =>
      rw [hobject] at h
      cases h
    | ok result =>
      obtain ⟨last, rest⟩ := result
      obtain ⟨htakes, rfl⟩ := (readObject_iff hinside ha).mp hobject
      rw [hobject] at h
      change (shape.finish last >>= fun value => .ok (value, rest)) = _ at h
      cases hfinish : shape.finish last with
      | error fault =>
        rw [hfinish] at h
        cases h
      | ok value =>
        rw [hfinish] at h
        cases h
        exact ⟨⟨last, htakes, hfinish⟩, rfl⟩
  · rintro ⟨⟨last, htakes, hfinish⟩, rfl⟩
    rw [(readObject_iff hinside ha).mpr ⟨htakes, rfl⟩]
    change (shape.finish last >>= _) = _
    rw [hfinish]
    rfl

lemma ObjectText.reads_iff (h : ObjectText entries text)
    (ha : ∀ entry ∈ entries, Admits (shape.field depth) entry) :
    Reads (shape.read (depth + 1)) text value ↔
      ∃ last, Takes (shape.field depth) shape.start entries last ∧ shape.finish last = .ok value :=
  ⟨fun hreads => ((h.read_iff ha).mp (hreads [] endsNumber_nil)).1,
    fun htakes _ _ => (h.read_iff ha).mpr ⟨htakes, rfl⟩⟩

lemma ObjectText.lenient (h : ObjectText entries text)
    (ha : ∀ entry ∈ entries, Admits (shape.field depth) entry) :
    Lenient (shape.read (depth + 1)) text where
  settles := by
    by_cases hv : ∃ value, Reads (shape.read (depth + 1)) text value
    · exact .inl hv
    · refine .inr fun rest _ => ?_
      cases hread : shape.read (depth + 1) (text ++ rest) with
      | error fault => exact ⟨fault, rfl⟩
      | ok result => exact absurd ⟨_, (h.reads_iff ha).mpr ((h.read_iff ha).mp hread).1⟩ hv
  padded front rest hf _ := by
    unfold RecordShape.read
    rw [skipBlanks_append hf]

end Layout

def Document (value : List Char) (text : String) : Prop :=
  ∃ before after, Blank before ∧ Blank after ∧ text.toList = before ++ (value ++ after)

lemma readWhole_of_ok {text : String} (h : reader text.toList = .ok (value, rest)) :
    readWhole reader text = match skipBlanks rest with
    | [] => .ok value
    | _ => .error .trailingCharacters := by
  rw [readWhole, h]
  rfl

lemma readWhole_of_error {text : String} {fault : Fault} (h : reader text.toList = .error fault) :
    readWhole reader text = .error fault := by
  rw [readWhole, h]
  rfl

lemma Document.readWhole_iff {text : String} {document : List Char} (h : Document document text)
    (hl : Lenient reader document) :
    readWhole reader text = .ok value ↔ Reads reader document value := by
  obtain ⟨before, after, hb, ha, htext⟩ := h
  have hafter : EndsNumber after := by
    have hend := ha.endsNumber endsNumber_nil
    rwa [List.append_nil] at hend
  have hblanks : skipBlanks after = [] := by
    have hskip := skipBlanks_append ha []
    rwa [List.append_nil] at hskip
  have hread : reader text.toList = reader (document ++ after) := by
    rw [htext, hl.padded before after hb hafter]
  rcases hl.settles with ⟨other, hother⟩ | hrefuses
  · rw [readWhole_of_ok (hread.trans (hother after hafter)), hblanks]
    refine ⟨fun heq => ?_, fun hreads => congrArg _ (hother.unique hreads)⟩
    cases heq
    exact hother
  · obtain ⟨fault, hfault⟩ := hrefuses after hafter
    rw [readWhole_of_error (hread.trans hfault)]
    constructor
    · rintro ⟨⟩
    · exact fun hreads => absurd hreads hrefuses.not_reads

section Fields

variable {earlier : Option α} {enter : α → ς} {fieldReader : Reader ς} {get : ς → Option α}

lemma skipValue_text (h : ValueText text) (hr : EndsNumber rest) :
    skipValue (text ++ rest) = .ok rest :=
  skipValue_append blank_nil h hr

lemma reads_unknown (h : ValueText text) :
    Reads (fun cs => do return (state, ← skipValue cs)) text state := by
  intro rest hr
  dsimp only
  rw [skipValue_text h hr]
  rfl

lemma lenient_unknown (hf : unknownField state = .ok fieldReader) (h : ValueText text) :
    Lenient fieldReader text := by
  cases hf
  refine ⟨.inl ⟨state, reads_unknown h⟩, fun front rest hf hr => ?_⟩
  rw [skipValue_append hf h hr, skipValue_text h hr]

lemma unknown_output (h : unknownField state = .ok fieldReader)
    (hr : fieldReader cs = .ok (next, rest)) : next = state := by
  cases h
  dsimp only at hr
  cases hskip : skipValue cs with
  | error fault =>
    rw [hskip] at hr
    cases hr
  | ok rest =>
    rw [hskip] at hr
    cases hr
    rfl

lemma reads_enter (h : Reads reader text value) :
    Reads (fun cs => (reader cs).map fun r => (enter r.1, r.2)) text (enter value) := by
  intro rest hr
  dsimp only
  rw [h rest hr]
  rfl

lemma onceField_eq_ok (h : onceField name earlier reader enter = .ok fieldReader) :
    earlier = none ∧ fieldReader = fun cs => (reader cs).map fun r => (enter r.1, r.2) := by
  cases earlier with
  | some => cases h
  | none =>
    cases h
    exact ⟨rfl, rfl⟩

lemma lenient_once (hf : onceField name earlier reader enter = .ok fieldReader)
    (h : Lenient reader text) : Lenient fieldReader text := by
  obtain ⟨-, rfl⟩ := onceField_eq_ok hf
  refine ⟨?_, fun front rest hf hr => by rw [h.padded front rest hf hr]⟩
  rcases h.settles with ⟨value, hvalue⟩ | hrefuses
  · exact .inl ⟨enter value, reads_enter hvalue⟩
  · refine .inr fun rest hr => ?_
    obtain ⟨fault, hfault⟩ := hrefuses rest hr
    refine ⟨fault, ?_⟩
    dsimp only
    rw [hfault]
    rfl

lemma onceField_output (h : onceField name earlier reader enter = .ok fieldReader)
    (hr : fieldReader cs = .ok (next, rest)) :
    ∃ value, reader cs = .ok (value, rest) ∧ next = enter value := by
  obtain ⟨-, rfl⟩ := onceField_eq_ok h
  dsimp only at hr
  cases hread : reader cs with
  | error fault =>
    rw [hread] at hr
    cases hr
  | ok result =>
    rw [hread] at hr
    cases hr
    exact ⟨_, rfl, rfl⟩

/-- The field of this name is read once, by this reader, and `get` is what has been read of it. -/
structure Once (field : ς → String → Except Fault (Reader ς)) (name : String) (reader : Reader α)
    (get : ς → Option α) : Prop where
  enters : ∀ state, ∃ enter, field state name = onceField name (get state) reader enter ∧
    ∀ value, get (enter value) = some value
  keeps : ∀ state key fieldReader, key ≠ name → field state key = .ok fieldReader →
    ∀ cs next rest, fieldReader cs = .ok (next, rest) → get next = get state

def textsOf (name : String) (entries : List (String × List Char)) : List (List Char) :=
  (entries.filter fun entry => entry.1 = name).map Prod.snd

@[simp] lemma textsOf_cons_self :
    textsOf key ((key, text) :: entries) = text :: textsOf key entries := by
  simp [textsOf]

lemma textsOf_cons_of_ne (h : key ≠ name) :
    textsOf name ((key, text) :: entries) = textsOf name entries := by
  simp [textsOf, h]

lemma mem_textsOf (h : entry ∈ entries) : entry.2 ∈ textsOf entry.1 entries :=
  List.mem_map_of_mem (List.mem_filter.mpr ⟨h, decide_eq_true rfl⟩)

lemma exists_of_mem_textsOf (h : text ∈ textsOf name entries) :
    ∃ entry ∈ entries, entry.1 = name ∧ entry.2 = text := by
  obtain ⟨entry, he, rfl⟩ := List.mem_map.mp h
  obtain ⟨he, hname⟩ := List.mem_filter.mp he
  exact ⟨entry, he, of_decide_eq_true hname, rfl⟩

lemma valueText_of_mem (hv : ∀ entry ∈ entries, entry.1 = name → ValueText entry.2)
    (ht : text ∈ textsOf name entries) : ValueText text := by
  obtain ⟨entry, he, hname, rfl⟩ := exists_of_mem_textsOf ht
  exact hv entry he hname

def Given (reads : List Char → α → Prop) (texts : List (List Char)) (value : Option α) : Prop :=
  List.Forall₂ reads texts value.toList

variable {texts : List (List Char)} {given given' : Option α}

lemma Given.length_le {reads : List Char → α → Prop} (h : Given reads texts given) :
    texts.length ≤ 1 := by
  rw [List.Forall₂.length_eq h]
  cases given <;> simp

lemma Given.exists_of_mem {reads : List Char → α → Prop} (h : Given reads texts given)
    (ht : text ∈ texts) : ∃ value, reads text value := by
  cases given with
  | none => cases h; cases ht
  | some value =>
    rcases h with _ | ⟨h, ⟨⟩⟩
    exact ⟨value, List.mem_singleton.mp ht ▸ h⟩

lemma Given.map {β : Type} {reads : List Char → α → Prop} {reads' : List Char → β → Prop}
    {f : α → β} (h : Given reads texts given) (hf : ∀ text value, reads text value → reads' text (f value)) :
    Given reads' texts (given.map f) := by
  cases given with
  | none =>
    cases h
    exact .nil
  | some value =>
    rcases h with _ | ⟨h, ⟨⟩⟩
    exact .cons (hf _ value h) .nil

lemma Given.unique (h : Given (Reads reader) texts given) (h' : Given (Reads reader) texts given') :
    given = given' := by
  cases given <;> cases given' <;> rcases h with _ | ⟨h, -⟩ <;> rcases h' with _ | ⟨h', -⟩
  · rfl
  · rw [h.unique h']

lemma Once.reads (ho : Once field name reader get) (hf : field state name = .ok fieldReader)
    (hr : Reads fieldReader text next) :
    get state = none ∧ ∃ value, Reads reader text value ∧ get next = some value := by
  obtain ⟨enter, hfield, hget⟩ := ho.enters state
  rw [hfield] at hf
  have hvalue (rest : List Char) (hrest : EndsNumber rest) :
      ∃ value, reader (text ++ rest) = .ok (value, rest) ∧ next = enter value :=
    onceField_output hf (hr rest hrest)
  obtain ⟨value, -, rfl⟩ := hvalue [] endsNumber_nil
  refine ⟨(onceField_eq_ok hf).1, value, fun rest hrest => ?_, hget value⟩
  -- `get` gives back what was entered, so the value cannot hang on what stands behind the text.
  obtain ⟨other, hother, henter⟩ := hvalue rest hrest
  have hsame := hget value
  rw [henter, hget other] at hsame
  rw [hother, Option.some.inj hsame]

lemma Once.keeps_taken (ho : Once field name reader get) (h : Takes field state entries last)
    (hs : get state = some value) : textsOf name entries = [] ∧ get last = some value := by
  induction h with
  | nil => exact ⟨rfl, hs⟩
  | @cons state next last key text fieldReader more hf hv hm ih =>
    have hne : key ≠ name := by
      rintro rfl
      rw [(ho.reads hf hv).1] at hs
      cases hs
    rw [textsOf_cons_of_ne hne]
    exact ih ((ho.keeps _ _ _ hne hf _ _ _ (hv [] endsNumber_nil)).trans hs)

theorem Once.given_of_takes (ho : Once field name reader get) (h : Takes field state entries last)
    (hs : get state = none) : Given (Reads reader) (textsOf name entries) (get last) := by
  induction h with
  | nil =>
    rw [hs]
    exact .nil
  | @cons state next last key text fieldReader more hf hv hm ih =>
    by_cases hne : key = name
    · subst hne
      obtain ⟨-, value, hvalue, hnext⟩ := ho.reads hf hv
      obtain ⟨htexts, hlast⟩ := ho.keeps_taken hm hnext
      rw [textsOf_cons_self, htexts, hlast]
      exact .cons hvalue .nil
    · rw [textsOf_cons_of_ne hne]
      exact ih ((ho.keeps _ _ _ hne hf _ _ _ (hv [] endsNumber_nil)).trans hs)

inductive Expects (field : ς → String → Except Fault (Reader ς)) (state : ς) (key : String) :
    List (List Char) → Prop
  | unknown {texts : List (List Char)} (h : ∀ state, field state key = unknownField state)
      (ht : ∀ text ∈ texts, ValueText text) : Expects field state key texts
  | none : Expects field state key []
  | once {α : Type} {reader : Reader α} {get : ς → Option α} {text : List Char} {value : α}
      (h : Once field key reader get) (hs : get state = Option.none)
      (ht : Reads reader text value) : Expects field state key [text]

lemma Once.expects (ho : Once field key reader get) (hs : get state = none)
    (h : Given (Reads reader) texts given) : Expects field state key texts := by
  cases given with
  | none =>
    cases h
    exact .none
  | some value =>
    rcases h with _ | ⟨h, ⟨⟩⟩
    exact .once ho hs h

lemma Expects.keep (h : Expects field state name texts) (hne : key ≠ name)
    (hf : field state key = .ok fieldReader) (hr : Reads fieldReader text next) :
    Expects field next name texts := by
  cases h with
  | unknown h ht => exact .unknown h ht
  | none => exact .none
  | once h hs ht =>
    exact .once h ((h.keeps _ _ _ hne hf _ _ _ (hr [] endsNumber_nil)).trans hs) ht

lemma Expects.step (h : Expects field state key (text :: texts)) :
    ∃ fieldReader next, field state key = .ok fieldReader ∧ Reads fieldReader text next ∧
      Expects field next key texts := by
  cases h with
  | unknown h ht =>
    exact ⟨_, state, h state, reads_unknown (ht text List.mem_cons_self),
      .unknown h fun other hm => ht other (List.mem_cons_of_mem _ hm)⟩
  | once h hs ht =>
    obtain ⟨enter, hfield, -⟩ := h.enters state
    rw [hs] at hfield
    exact ⟨_, _, hfield, reads_enter ht, .none⟩

theorem exists_takes (h : ∀ key, Expects field state key (textsOf key entries)) :
    ∃ last, Takes field state entries last := by
  induction entries generalizing state with
  | nil => exact ⟨state, .nil⟩
  | cons entry more ih =>
    obtain ⟨key, text⟩ := entry
    have hkey := h key
    rw [textsOf_cons_self] at hkey
    obtain ⟨fieldReader, next, hf, hr, hnext⟩ := hkey.step
    -- The member at the front counts for its own name only.
    have hmore (name : String) : Expects field next name (textsOf name more) := by
      by_cases hne : key = name
      · exact hne ▸ hnext
      · have hname := h name
        rw [textsOf_cons_of_ne hne] at hname
        exact hname.keep hne hf hr
    obtain ⟨last, hlast⟩ := ih hmore
    exact ⟨last, .cons hf hr hlast⟩

end Fields

end EventProcessing.Json
