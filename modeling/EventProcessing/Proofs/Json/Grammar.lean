import EventProcessing.Json.Record
import EventProcessing.Proofs.Json.Values

/-! The texts of JSON values in all their spellings: with blanks between the lexemes, any escapes in
the strings, and any form of number. Of a string or a number a reader takes what is its text and no
more. -/

namespace EventProcessing.Json

variable {α : Type} {cs rest : List Char}

/-- The reader finds nothing in this text, whatever stands behind it. -/
def Refuses (reader : Reader α) (text : List Char) : Prop :=
  ∀ rest, EndsNumber rest → ∃ fault, reader (text ++ rest) = .error fault

/-- The reader takes this text and no more, or refuses it, whatever stands behind it. -/
def Settles (reader : Reader α) (text : List Char) : Prop :=
  (∃ value, Reads reader text value) ∨ Refuses reader text

section Blanks

def Blank (cs : List Char) : Prop := ∀ c ∈ cs, isBlank c = true

instance : Decidable (Blank cs) := List.decidableBAll _ cs

lemma blank_nil : Blank [] := by decide

lemma skipBlanks_append (h : Blank cs) (rest : List Char) :
    skipBlanks (cs ++ rest) = skipBlanks rest :=
  List.dropWhile_append_of_pos h

lemma Blank.endsNumber (h : Blank cs) (hr : EndsNumber rest) : EndsNumber (cs ++ rest) := by
  cases cs with
  | nil => exact hr
  | cons c cs =>
    have hc := h c List.mem_cons_self
    simp only [isBlank, Bool.or_eq_true, decide_eq_true_eq] at hc
    apply endsNumber_cons
    obtain ((rfl | rfl) | rfl) | rfl := hc <;> decide

end Blanks

section Strings

inductive QuotedText : List Char → Prop
  | nil : QuotedText []
  | plain {c : Char} {body : List Char} (hq : c ≠ '"') (hs : c ≠ '\\') (hc : 0x20 ≤ c.toNat)
      (h : QuotedText body) : QuotedText (c :: body)
  | escape {e c : Char} {body : List Char} (he : simpleEscape? e = some c) (h : QuotedText body) :
      QuotedText ('\\' :: e :: body)
  | hex {a b c d : Char} {w x y z : ℕ} {body : List Char} (ha : hexValue? a = some w)
      (hb : hexValue? b = some x) (hc : hexValue? c = some y) (hd : hexValue? d = some z)
      (h : QuotedText body) : QuotedText ('\\' :: 'u' :: a :: b :: c :: d :: body)

def hexCode (w x y z : ℕ) : ℕ := ((w * 16 + x) * 16 + y) * 16 + z

inductive Spells : List Char → List Char → Prop
  | nil : Spells [] []
  | plain {c : Char} {body name : List Char} (hq : c ≠ '"') (hs : c ≠ '\\') (hc : 0x20 ≤ c.toNat)
      (h : Spells body name) : Spells (c :: body) (c :: name)
  | escape {e c : Char} {body name : List Char} (he : simpleEscape? e = some c)
      (h : Spells body name) : Spells ('\\' :: e :: body) (c :: name)
  | hex {a b c d : Char} {w x y z : ℕ} {body name : List Char} (ha : hexValue? a = some w)
      (hb : hexValue? b = some x) (hc : hexValue? c = some y) (hd : hexValue? d = some z)
      (hv : hexCode w x y z < 0xd800 ∨ 0xdfff < hexCode w x y z) (h : Spells body name) :
      Spells ('\\' :: 'u' :: a :: b :: c :: d :: body) (Char.ofNat (hexCode w x y z) :: name)
  | pair {a b c d a' b' c' d' : Char} {w x y z w' x' y' z' : ℕ} {body name : List Char}
      (ha : hexValue? a = some w) (hb : hexValue? b = some x) (hc : hexValue? c = some y)
      (hd : hexValue? d = some z) (ha' : hexValue? a' = some w') (hb' : hexValue? b' = some x')
      (hc' : hexValue? c' = some y') (hd' : hexValue? d' = some z')
      (hhigh : 0xd800 ≤ hexCode w x y z ∧ hexCode w x y z ≤ 0xdbff)
      (hlow : 0xdc00 ≤ hexCode w' x' y' z' ∧ hexCode w' x' y' z' ≤ 0xdfff)
      (h : Spells body name) :
      Spells ('\\' :: 'u' :: a :: b :: c :: d :: '\\' :: 'u' :: a' :: b' :: c' :: d' :: body)
        (Char.ofNat ((hexCode w x y z - 0xd800) * 0x400 + (hexCode w' x' y' z' - 0xdc00) + 0x10000)
          :: name)

variable {paired : Bool} {spot spot' : Spot} {c : Char} {body name read : List Char}
  {out : Option (List Char)}

lemma Spells.quotedText (h : Spells body name) : QuotedText body := by
  induction h with
  | nil => exact .nil
  | plain hq hs hc _ ih => exact .plain hq hs hc ih
  | escape he _ ih => exact .escape he ih
  | hex ha hb hc hd _ _ ih => exact .hex ha hb hc hd ih
  | pair ha hb hc hd ha' hb' hc' hd' _ _ _ ih =>
    exact .hex ha hb hc hd (.hex ha' hb' hc' hd' ih)

/-- What a reader at this spot makes of the rest of a string, whatever stands behind the string:
these characters, or nothing. -/
def Gives (paired : Bool) (spot : Spot) (body : List Char) (out : Option (List Char)) : Prop :=
  ∀ rest, (stringBody paired spot (body ++ '"' :: rest)).toOption = out.map fun cs => (cs, rest)

lemma gives_nil : Gives paired .plain [] (some []) := fun _ => rfl

lemma toOption_map {β : Type} (x : Except Fault α) (f : α → β) :
    (x.map f).toOption = x.toOption.map f := by
  cases x <;> rfl

lemma Gives.step (hs : ∀ rest, stringStep paired spot c rest = .ok (.next spot' read))
    (h : Gives paired spot' body out) : Gives paired spot (c :: body) (out.map (read ++ ·)) := by
  intro rest
  rw [List.cons_append, stringBody, hs]
  dsimp only
  rw [toOption_map, h rest, Option.map_map, Option.map_map]
  rfl

lemma gives_none {fault : Fault} (hs : ∀ rest, stringStep paired spot c rest = .error fault)
    (body : List Char) : Gives paired spot (c :: body) none := by
  intro rest
  rw [List.cons_append, stringBody, hs]
  rfl

lemma stringStep_plain (hq : c ≠ '"') (hs : c ≠ '\\') (hc : 0x20 ≤ c.toNat) (rest : List Char) :
    stringStep paired .plain c rest = .ok (.next .plain [c]) := by
  simp [stringStep, hq, hs, Nat.not_lt.mpr hc]

lemma ne_of_simpleEscape? {e : Char} (he : simpleEscape? e = some c) : e ≠ 'u' := by
  rintro rfl
  cases he

lemma stringStep_escape {e : Char} (he : simpleEscape? e = some c) (rest : List Char) :
    stringStep paired .escape e rest = .ok (.next .plain [c]) := by
  simp [stringStep, ne_of_simpleEscape? he, he]

lemma stringStep_hex {left value d : ℕ} {high : Option ℕ} (hl : 1 < left)
    (hc : hexValue? c = some d) (rest : List Char) :
    stringStep paired (.hex left value high) c rest =
      .ok (.next (.hex (left - 1) (value * 16 + d) high) []) := by
  simp [stringStep, hc, Nat.not_le.mpr hl]

lemma Gives.silent (hs : ∀ rest, stringStep paired spot c rest = .ok (.next spot' []))
    (h : Gives paired spot' body out) : Gives paired spot (c :: body) out := by
  have hstep := h.step hs
  simpa using hstep

section Hex

variable {a b d : Char} {w x y z : ℕ} {high : Option ℕ} (ha : hexValue? a = some w)
  (hb : hexValue? b = some x) (hc : hexValue? c = some y) (hd : hexValue? d = some z)

include ha hb hc hd

lemma Gives.hex (hv : hexDone paired (hexCode w x y z) high = .ok (.next spot' read))
    (h : Gives paired spot' body out) :
    Gives paired (.hex 4 0 high) (a :: b :: c :: d :: body) (out.map (read ++ ·)) := by
  refine .silent (stringStep_hex (by decide) ha) (.silent (stringStep_hex (by decide) hb)
    (.silent (stringStep_hex (by decide) hc) (h.step fun rest => ?_)))
  simpa [stringStep, hd, hexCode] using hv

lemma gives_none_hex {fault : Fault} (hv : hexDone paired (hexCode w x y z) high = .error fault)
    (body : List Char) : Gives paired (.hex 4 0 high) (a :: b :: c :: d :: body) none := by
  have hlast (rest : List Char) :
      stringStep paired (.hex 1 ((w * 16 + x) * 16 + y) high) d rest = .error fault := by
    simpa [stringStep, hd, hexCode] using hv
  refine .silent (stringStep_hex (by decide) ha) (.silent (stringStep_hex (by decide) hb)
    (.silent (stringStep_hex (by decide) hc) ?_))
  simpa using gives_none hlast body

end Hex

lemma hexDone_cases {value : ℕ} {high : Option ℕ} {step : StringStep}
    (h : hexDone paired value high = .ok step) :
    ∃ spot read, step = .next spot read ∧ (spot = .plain ∨ ∃ high, spot = .pairSlash high) := by
  cases high <;> simp only [hexDone] at h <;> split_ifs at h <;> cases h <;> simp

lemma Spells.gives (h : Spells body name) : Gives true .plain body (some name) := by
  induction h with
  | nil => exact gives_nil
  | plain hq hs hc _ ih => exact ih.step (stringStep_plain hq hs hc)
  | escape he _ ih => exact .silent (fun _ => rfl) (ih.step (stringStep_escape he))
  | @hex a b c d w x y z body name ha hb hc hd hv _ ih =>
    have hdone : hexDone true (hexCode w x y z) none =
        .ok (.next .plain [Char.ofNat (hexCode w x y z)]) := by
      have hlow : ¬ (0xdc00 ≤ hexCode w x y z ∧ hexCode w x y z ≤ 0xdfff) := by omega
      have hhigh : ¬ (0xd800 ≤ hexCode w x y z ∧ hexCode w x y z ≤ 0xdbff) := by omega
      simp [hexDone, hlow, hhigh]
    exact .silent (fun _ => rfl) (.silent (fun _ => rfl) (.hex ha hb hc hd hdone ih))
  | @pair a b c d a' b' c' d' w x y z w' x' y' z' body name ha hb hc hd ha' hb' hc' hd' hhigh hlow
      _ ih =>
    have hdone : hexDone true (hexCode w x y z) none =
        .ok (.next (.pairSlash (hexCode w x y z)) []) := by
      have hnot : ¬ (0xdc00 ≤ hexCode w x y z ∧ hexCode w x y z ≤ 0xdfff) := by omega
      simp [hexDone, hnot, hhigh]
    have hdone' : hexDone true (hexCode w' x' y' z') (some (hexCode w x y z)) =
        .ok (.next .plain [_]) := if_pos hlow
    exact .silent (fun _ => rfl) (.silent (fun _ => rfl) (.hex ha hb hc hd hdone
      (.silent (fun _ => rfl) (.silent (fun _ => rfl) (.hex ha' hb' hc' hd' hdone' ih)))))

lemma QuotedText.skipped (h : QuotedText body) : ∃ cs, Gives false .plain body (some cs) := by
  induction h with
  | nil => exact ⟨[], gives_nil⟩
  | plain hq hs hc _ ih =>
    obtain ⟨cs, ih⟩ := ih
    exact ⟨_, ih.step (stringStep_plain hq hs hc)⟩
  | escape he _ ih =>
    obtain ⟨cs, ih⟩ := ih
    exact ⟨_, .silent (fun _ => rfl) (ih.step (stringStep_escape he))⟩
  | hex ha hb hc hd _ ih =>
    obtain ⟨cs, ih⟩ := ih
    exact ⟨_, .silent (fun _ => rfl) (.silent (fun _ => rfl) (.hex ha hb hc hd rfl ih))⟩

lemma QuotedText.gives (h : QuotedText body) :
    (∃ out, Gives true .plain body out) ∧ ∀ high, ∃ out, Gives true (.pairSlash high) body out := by
  induction h with
  | nil => exact ⟨⟨_, gives_nil⟩, fun high => ⟨none, fun _ => rfl⟩⟩
  | @plain c _ hq hs hc _ ih =>
    obtain ⟨⟨out, ih⟩, -⟩ := ih
    have hslash (high : ℕ) (rest : List Char) :
        stringStep true (.pairSlash high) c rest = .error .unfinishedHexEscape := if_neg hs
    exact ⟨⟨_, ih.step (stringStep_plain hq hs hc)⟩, fun high => ⟨none, gives_none (hslash high) _⟩⟩
  | @escape e _ _ he _ ih =>
    obtain ⟨⟨out, ih⟩, -⟩ := ih
    have hletter (high : ℕ) (rest : List Char) :
        stringStep true (.pairLetter high) e rest = .error .unfinishedHexEscape :=
      if_neg (ne_of_simpleEscape? he)
    exact ⟨⟨_, .silent (fun _ => rfl) (ih.step (stringStep_escape he))⟩,
      fun high => ⟨none, .silent (fun _ => rfl) (gives_none (hletter high) _)⟩⟩
  | @hex a b c d w x y z body ha hb hc hd _ ih =>
    obtain ⟨⟨out, hplain⟩, hpair⟩ := ih
    -- What may follow the four digits hangs on the code that they make.
    have hfour (high : Option ℕ) :
        ∃ out, Gives true (.hex 4 0 high) (a :: b :: c :: d :: body) out := by
      cases hdone : hexDone true (hexCode w x y z) high with
      | error fault => exact ⟨none, gives_none_hex ha hb hc hd hdone body⟩
      | ok step =>
        obtain ⟨spot, read, rfl, rfl | ⟨high, rfl⟩⟩ := hexDone_cases hdone
        · exact ⟨_, .hex ha hb hc hd hdone hplain⟩
        · obtain ⟨out, hout⟩ := hpair high
          exact ⟨_, .hex ha hb hc hd hdone hout⟩
    obtain ⟨first, hfirst⟩ := hfour none
    refine ⟨⟨first, .silent (fun _ => rfl) (.silent (fun _ => rfl) hfirst)⟩, fun high => ?_⟩
    obtain ⟨second, hsecond⟩ := hfour (some high)
    exact ⟨second, .silent (fun _ => rfl) (.silent (fun _ => rfl) hsecond)⟩

lemma Gives.eq_ok {cs : List Char} (h : Gives paired spot body (some cs)) (rest : List Char) :
    stringBody paired spot (body ++ '"' :: rest) = .ok (cs, rest) := by
  have hrest := h rest
  cases hbody : stringBody paired spot (body ++ '"' :: rest) with
  | error fault =>
    rw [hbody] at hrest
    cases hrest
  | ok result =>
    rw [hbody] at hrest
    exact congrArg Except.ok (Option.some.inj hrest)

lemma Gives.eq_error (h : Gives paired spot body none) (rest : List Char) :
    ∃ fault, stringBody paired spot (body ++ '"' :: rest) = .error fault := by
  have hrest := h rest
  cases hbody : stringBody paired spot (body ++ '"' :: rest) with
  | error fault => exact ⟨fault, rfl⟩
  | ok result =>
    rw [hbody] at hrest
    cases hrest

lemma skipString_quotedText (h : QuotedText body) (rest : List Char) :
    skipString (body ++ '"' :: rest) = .ok rest := by
  obtain ⟨cs, hcs⟩ := h.skipped
  rw [skipString, hcs.eq_ok]
  rfl

lemma readString_spells {text : String} (h : Spells body text.toList) (rest : List Char) :
    readString (body ++ '"' :: rest) = .ok (text, rest) := by
  rw [readString, h.gives.eq_ok, Except.map, String.ofList_toList]

lemma readString_cases (h : QuotedText body) :
    (∃ text, ∀ rest, readString (body ++ '"' :: rest) = .ok (text, rest)) ∨
      ∀ rest, ∃ fault, readString (body ++ '"' :: rest) = .error fault := by
  obtain ⟨⟨out, hout⟩, -⟩ := h.gives
  cases out with
  | some cs =>
    refine .inl ⟨String.ofList cs, fun rest => ?_⟩
    rw [readString, hout.eq_ok]
    rfl
  | none =>
    refine .inr fun rest => ?_
    obtain ⟨fault, hfault⟩ := hout.eq_error rest
    refine ⟨fault, ?_⟩
    rw [readString, hfault]
    rfl

end Strings

section Numbers

def Digits (cs : List Char) : Prop := cs ≠ [] ∧ ∀ c ∈ cs, c.isDigit = true

inductive FractionText : List Char → Prop
  | none : FractionText []
  | some {digits : List Char} (h : Digits digits) : FractionText ('.' :: digits)

inductive ExponentText : List Char → Prop
  | none : ExponentText []
  | some {e : Char} {sign digits : List Char} (he : e = 'e' ∨ e = 'E')
      (hs : sign = [] ∨ sign = ['+'] ∨ sign = ['-']) (h : Digits digits) :
      ExponentText (e :: (sign ++ digits))

inductive UnsignedText : List Char → Prop
  | mk {n : ℕ} {fraction exponent : List Char} (hf : FractionText fraction)
      (he : ExponentText exponent) : UnsignedText (Nat.toDigits 10 n ++ (fraction ++ exponent))

inductive NumberText : List Char → Prop
  | unsigned {text : List Char} (h : UnsignedText text) : NumberText text
  | negative {text : List Char} (h : UnsignedText text) : NumberText ('-' :: text)

def NoDigit (rest : List Char) : Prop := ∀ c ∈ rest.head?, c.isDigit = false

variable {n : ℕ} {digits fraction exponent text : List Char} {negative : Bool}

lemma EndsNumber.noDigit (h : EndsNumber rest) : NoDigit rest := fun c hc => (h c hc).1

lemma noDigit_cons {c : Char} (h : c.isDigit = false) : NoDigit (c :: rest) := by
  rintro _ ⟨⟩
  exact h

lemma ExponentText.noDigit (h : ExponentText exponent) (hr : EndsNumber rest) :
    NoDigit (exponent ++ rest) := by
  cases h with
  | none => exact hr.noDigit
  | some he hs hd =>
    apply noDigit_cons
    obtain rfl | rfl := he <;> decide

lemma FractionText.noDigit (h : FractionText fraction) (hr : NoDigit rest) :
    NoDigit (fraction ++ rest) := by
  cases h with
  | none => exact hr
  | some hd => exact noDigit_cons (by decide)

lemma afterDigits_append (hd : ∀ c ∈ digits, c.isDigit = true) (hr : NoDigit rest) :
    afterDigits (digits ++ rest) = rest := by
  rw [afterDigits, List.dropWhile_append_of_pos hd]
  cases rest with
  | nil => rfl
  | cons c rest => simp [hr c rfl]

lemma digitsOf_append (hd : ∀ c ∈ digits, c.isDigit = true) (hr : NoDigit rest) :
    digitsOf (digits ++ rest) = digits := by
  rw [digitsOf, List.takeWhile_append_of_pos hd]
  cases rest with
  | nil => simp
  | cons c rest => simp [hr c rfl]

lemma Digits.any_head (h : Digits digits) (rest : List Char) :
    (digits ++ rest).head?.any Char.isDigit = true := by
  obtain ⟨c, more, rfl⟩ := List.exists_cons_of_ne_nil h.1
  simpa using h.2 c List.mem_cons_self

lemma not_zero_in_front {c : Char} {more : List Char} (h : Nat.toDigits 10 n = c :: more)
    (hr : NoDigit rest) : ¬ (c = '0' ∧ (more ++ rest).head?.any Char.isDigit = true) := by
  rintro ⟨rfl, hany⟩
  have hzero := toDigits_of_head?_eq_zero (n := n) (by rw [h]; rfl)
  obtain rfl : more = [] := by simpa [h] using hzero
  cases rest with
  | nil => simp at hany
  | cons d rest => simp [hr d rfl] at hany

lemma ne_of_isDigit {c d : Char} (hc : c.isDigit = true) (hd : d.isDigit = false) : c ≠ d := by
  rintro rfl
  rw [hc] at hd
  cases hd

lemma skipExponent_append (h : Digits digits) (hr : NoDigit rest) {sign : List Char}
    (hs : sign = [] ∨ sign = ['+'] ∨ sign = ['-']) :
    skipExponent (sign ++ digits ++ rest) = .ok rest := by
  have hany := h.any_head rest
  have hafter := afterDigits_append h.2 hr
  obtain rfl | rfl | rfl := hs
  · obtain ⟨c, more, rfl⟩ := List.exists_cons_of_ne_nil h.1
    have hc := h.2 c List.mem_cons_self
    have hplus : c ≠ '+' := ne_of_isDigit hc (by decide)
    have hminus : c ≠ '-' := ne_of_isDigit hc (by decide)
    rw [List.cons_append] at hafter
    simp [skipExponent, hplus, hminus, hc, hafter]
  · exact (if_pos hany).trans (congrArg _ hafter)
  · exact (if_pos hany).trans (congrArg _ hafter)

lemma skipNumber_unsigned (h : UnsignedText text) (hr : EndsNumber rest) :
    skipNumber (text ++ rest) = .ok rest := by
  cases h with
  | @mk n fraction exponent hf he =>
    have hexponent := he.noDigit hr
    obtain ⟨c, more, hdigits, hc⟩ := toDigits_cons n
    have hzero := not_zero_in_front hdigits (hf.noDigit hexponent)
    have hafter := afterDigits_append (fun _ => isDigit_of_mem_toDigits (n := n))
      (hf.noDigit hexponent)
    rw [List.append_assoc, List.append_assoc]
    rw [hdigits, List.cons_append] at hafter ⊢
    rw [skipNumber]
    simp only [hc, Bool.not_true, Bool.false_eq_true, if_false, if_neg hzero, hafter]
    cases hf with
    | none =>
      cases he with
      | none =>
        rw [List.nil_append, List.nil_append]
        split
        · exact absurd rfl (hr _ rfl).2.1
        · exact absurd rfl (hr _ rfl).2.2.1
        · exact absurd rfl (hr _ rfl).2.2.2
        · rfl
      | some he hs hd =>
        obtain rfl | rfl := he <;> exact skipExponent_append hd hr.noDigit hs
    | some hd =>
      rw [List.cons_append]
      change (if _ then _ else _) = _
      rw [if_pos (hd.any_head _), afterDigits_append hd.2 hexponent]
      cases he with
      | none =>
        rw [List.nil_append]
        split
        · exact absurd rfl (hr _ rfl).2.2.1
        · exact absurd rfl (hr _ rfl).2.2.2
        · rfl
      | some he hs hd =>
        obtain rfl | rfl := he <;> exact skipExponent_append hd hr.noDigit hs

/-- If this gives a number, it is none that counts as natural. -/
def Unnatural (result : Except Fault (Front Number)) : Prop :=
  ∀ number rest, result = .ok (number, rest) →
    ∀ expected bound, ∃ fault, naturalOf expected bound number = .error fault

lemma unnatural_error (fault : Fault) : Unnatural (.error fault) := nofun

lemma unnatural_readScaled (significand : ℕ) (exponent : ℤ) (rest : List Char) :
    Unnatural (readScaled negative significand exponent rest) := by
  intro number rest' h expected bound
  unfold readScaled at h
  split at h
  · cases h
    exact ⟨_, rfl⟩
  · cases h

lemma unnatural_readExponent (significand : ℕ) (exponent : ℤ) (cs : List Char) :
    Unnatural (readExponent negative significand exponent cs) := by
  unfold readExponent
  split
  dsimp only
  split
  · exact unnatural_error _
  · split
    · exact unnatural_readScaled _ _ _
    · exact unnatural_error _

lemma unnatural_readFraction (significand : ℕ) (exponent : ℤ) (cs : List Char) :
    Unnatural (readFraction negative significand exponent cs) := by
  unfold readFraction
  split
  · exact unnatural_error _
  · split
    · dsimp only
      split
      · exact unnatural_readExponent _ _ _
      · exact unnatural_readExponent _ _ _
      · exact unnatural_readScaled _ _ _
    · exact unnatural_error _

lemma unnatural_integerOf (n : ℕ) (rest : List Char) : Unnatural (integerOf true n rest) := by
  rw [integerOf, if_neg (by decide)]
  split
  next hn =>
    intro number rest' h expected bound
    cases h
    exact ⟨_, if_neg (by omega)⟩
  · exact unnatural_readScaled _ _ _

lemma unnatural_readNumber (cs : List Char) : Unnatural (readNumber true cs) := by
  unfold readNumber
  split
  · exact unnatural_error _
  · split
    · exact unnatural_error _
    · split
      · exact unnatural_error _
      · dsimp only
        split
        · exact unnatural_readFraction _ _ _
        · exact unnatural_readExponent _ _ _
        · exact unnatural_readExponent _ _ _
        · split
          · exact unnatural_integerOf _ _
          · exact unnatural_readScaled _ _ _

lemma foldl_lt_of_absorb (digits : List Char) (n : ℕ) (hn : n < UInt64.size)
    (h : (absorb n digits).2 = 0) :
    digits.foldl (fun n c => n * 10 + digitValue c) n < UInt64.size := by
  induction digits generalizing n with
  | nil => exact hn
  | cons c digits ih =>
    rw [absorb] at h
    split at h
    next hlt => exact ih _ hlt h
    next => cases h

lemma unnatural_of_unsigned (hf : FractionText fraction) (he : ExponentText exponent)
    (hr : EndsNumber rest) (h : fraction ++ exponent ≠ [] ∨ UInt64.size ≤ n) :
    Unnatural (readNumber false (Nat.toDigits 10 n ++ (fraction ++ (exponent ++ rest)))) := by
  have hnone := hf.noDigit (he.noDigit hr)
  obtain ⟨c, more, hdigits, hc⟩ := toDigits_cons n
  have hzero := not_zero_in_front hdigits hnone
  have hdigitsOf := digitsOf_append (fun _ => isDigit_of_mem_toDigits (n := n)) hnone
  have hafter := afterDigits_append (fun _ => isDigit_of_mem_toDigits (n := n)) hnone
  rw [hdigits, List.cons_append] at hdigitsOf hafter ⊢
  rw [readNumber]
  simp only [hc, Bool.not_true, Bool.false_eq_true, if_false, if_neg hzero, hdigitsOf, hafter]
  split
  · exact unnatural_readFraction _ _ _
  · exact unnatural_readExponent _ _ _
  · exact unnatural_readExponent _ _ _
  next hpoint hsmall hlarge =>
    split
    next hleft =>
      exfalso
      rw [← hdigits] at hleft
      have hlt : natOf (Nat.toDigits 10 n) < UInt64.size :=
        foldl_lt_of_absorb _ 0 (by decide) hleft
      rw [natOf_toDigits] at hlt
      rcases h with hscale | hn
      · cases hf with
        | some hd => exact hpoint _ rfl
        | none =>
          cases he with
          | none => exact hscale rfl
          | some he hs hd =>
            obtain rfl | rfl := he
            · exact hsmall _ rfl
            · exact hlarge _ rfl
      · omega
    · exact unnatural_readScaled _ _ _

end Numbers

end EventProcessing.Json
