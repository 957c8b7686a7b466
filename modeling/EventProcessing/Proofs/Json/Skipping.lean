import EventProcessing.Proofs.Json.Grammar
import Mathlib.Data.List.DropRight

namespace EventProcessing.Json

section Grammar

variable {α : Type}

inductive Separated (item : α → List Char → Prop) : List α → List Char → Prop
  | last {a : α} {text : List Char} (h : item a text) : Separated item [a] text
  | more {a : α} {others : List α} {text rest : List Char} (h : item a text)
      (hr : Separated item others rest) : Separated item (a :: others) (text ++ ',' :: rest)

inductive Enclosed (item : α → List Char → Prop) : List α → List Char → Prop
  | empty {blank : List Char} (h : Blank blank) : Enclosed item [] blank
  | items {all : List α} {text : List Char} (h : Separated item all text) : Enclosed item all text

def ElementText (value text : List Char) : Prop :=
  ∃ before after, Blank before ∧ Blank after ∧ text = before ++ (value ++ after)

def MemberText (member : List Char × List Char) (text : List Char) : Prop :=
  ∃ before behind front after, Blank before ∧ Blank behind ∧ Blank front ∧ Blank after ∧
    text = before ++ '"' :: (member.1 ++ '"' :: (behind ++ ':' :: (front ++ (member.2 ++ after))))

inductive ValueText : List Char → Prop
  | null : ValueText ['n', 'u', 'l', 'l']
  | true : ValueText ['t', 'r', 'u', 'e']
  | false : ValueText ['f', 'a', 'l', 's', 'e']
  | number {text : List Char} (h : NumberText text) : ValueText text
  | string {body : List Char} (h : QuotedText body) : ValueText ('"' :: (body ++ ['"']))
  | array {values : List (List Char)} {inside : List Char} (h : Enclosed ElementText values inside)
      (hv : ∀ value ∈ values, ValueText value) : ValueText ('[' :: (inside ++ [']']))
  | object {members : List (List Char × List Char)} {inside : List Char}
      (h : Enclosed MemberText members inside) (hk : ∀ member ∈ members, QuotedText member.1)
      (hv : ∀ member ∈ members, ValueText member.2) : ValueText ('\x7b' :: (inside ++ ['\x7d']))

end Grammar

variable {cs rest text body : List Char} {frame : Frame} {frames : List Frame} {fuel : ℕ}

lemma UnsignedText.cons (h : UnsignedText text) :
    ∃ c more, text = c :: more ∧ c.isDigit = true := by
  cases h with
  | @mk n fraction exponent hf he =>
    obtain ⟨c, more, hdigits, hc⟩ := toDigits_cons n
    exact ⟨c, more ++ (fraction ++ exponent), by rw [hdigits, List.cons_append], hc⟩

lemma ValueText.opens (h : ValueText text) : Opens text := by
  cases h with
  | null | true | false | string | array | object => exact ⟨_, _, rfl, rfl, by decide⟩
  | number h =>
    cases h with
    | negative h => exact ⟨_, _, rfl, rfl, by decide⟩
    | unsigned h =>
      obtain ⟨c, more, rfl, hc⟩ := h.cons
      exact ⟨c, more, rfl, not_isBlank_of_isDigit hc, ne_of_isDigit hc (by decide)⟩

section Steps

lemma skipFrom_value : skipFrom (fuel + 1) .value frames cs =
    (match skipBlanks cs with
    | '[' :: rest => skipFrom fuel .opened (.list :: frames) rest
    | '\x7b' :: rest => skipFrom fuel .opened (.object :: frames) rest
    | cs => skipScalar cs >>= skipFrom fuel .closed frames) := rfl

lemma skipFrom_opened : skipFrom (fuel + 1) .opened (frame :: frames) cs =
    (match closes? frame (skipBlanks cs), skipBlanks cs with
    | some rest, _ => skipFrom fuel .closed frames rest
    | none, [] => .error frame.unclosed
    | none, cs => beforeValue frame cs >>= skipFrom fuel .value (frame :: frames)) := by
  rw [skipFrom.eq_def]
  dsimp only
  split <;> simp_all

lemma skipFrom_closed : skipFrom (fuel + 1) .closed (frame :: frames) cs =
    (match closes? frame (skipBlanks cs), skipBlanks cs with
    | some rest, _ => skipFrom fuel .closed frames rest
    | none, [] => .error frame.unclosed
    | none, ',' :: rest => beforeValue frame rest >>= skipFrom fuel .value (frame :: frames)
    | none, _ => .error frame.expectedEnd) := by
  rw [skipFrom.eq_def]
  dsimp only
  split <;> simp_all

lemma skipFrom_value_append (h : Blank cs) :
    skipFrom fuel .value frames (cs ++ rest) = skipFrom fuel .value frames rest := by
  cases fuel with
  | zero => rfl
  | succ fuel => rw [skipFrom_value, skipFrom_value, skipBlanks_append h]

lemma skipFrom_closed_append (h : Blank cs) :
    skipFrom fuel .closed (frame :: frames) (cs ++ rest) =
      skipFrom fuel .closed (frame :: frames) rest := by
  cases fuel with
  | zero => rfl
  | succ fuel => rw [skipFrom_closed, skipFrom_closed, skipBlanks_append h]

lemma beforeValue_skipBlanks :
    beforeValue frame (skipBlanks cs) >>= skipFrom fuel .value frames =
      beforeValue frame cs >>= skipFrom fuel .value frames := by
  have hblanks : skipBlanks (skipBlanks cs) = skipBlanks cs := List.dropWhile_idempotent _ _
  cases frame with
  | list =>
    change skipFrom _ _ _ _ = skipFrom _ _ _ _
    cases fuel with
    | zero => rfl
    | succ fuel => rw [skipFrom_value, skipFrom_value, hblanks]
  | object =>
    change skipKey _ >>= _ = skipKey _ >>= _
    rw [skipKey, skipKey, hblanks]

lemma skipFrom_scalar {c : Char} (hc : isBlank c = false) (hl : c ≠ '[') (ho : c ≠ '\x7b')
    (hs : skipScalar (c :: cs) = .ok rest) :
    skipFrom (fuel + 1) .value frames (c :: cs) = skipFrom fuel .closed frames rest := by
  rw [skipFrom_value, skipBlanks_cons hc]
  split
  next heq => exact absurd (List.cons.inj heq).1 hl
  next heq => exact absurd (List.cons.inj heq).1 ho
  next =>
    rw [hs]
    rfl

lemma skipScalar_isDigit {c : Char} (hc : c.isDigit = true) :
    skipScalar (c :: cs) = skipNumber (c :: cs) := by
  unfold skipScalar
  split
  case h_6 heq => rw [← (List.cons.inj heq).1, ← (List.cons.inj heq).2, if_pos hc]
  case h_7 heq => cases heq
  -- All other cases are about a character that is no digit.
  all_goals
    next heq => exact absurd (List.cons.inj heq).1 (ne_of_isDigit hc (by decide))

lemma skipKey_quoted {last : List Char} (hs : skipString cs = .ok last) :
    skipKey ('"' :: cs) = (match skipBlanks last with
    | [] => .error .endInObject
    | ':' :: rest => .ok rest
    | _ => .error .expectedColon) := by
  change skipString cs >>= _ = _
  rw [hs]
  rfl

lemma skipKey_padded (h : Blank cs) : skipKey (cs ++ rest) = skipKey rest := by
  rw [skipKey, skipKey, skipBlanks_append h]

lemma skipKey_member {before behind : List Char} (h : QuotedText body) (hb : Blank before)
    (hbehind : Blank behind) (rest : List Char) :
    skipKey (before ++ '"' :: (body ++ '"' :: (behind ++ ':' :: rest))) = .ok rest := by
  rw [skipKey_padded hb, skipKey_quoted (skipString_quotedText h _), skipBlanks_append hbehind]
  rfl

end Steps

namespace Frame

def opener : Frame → Char
  | .list => '['
  | .object => '\x7b'

def closer : Frame → Char
  | .list => ']'
  | .object => '\x7d'

lemma skipFrom_opener (frame : Frame) : skipFrom (fuel + 1) .value frames (frame.opener :: rest) =
    skipFrom fuel .opened (frame :: frames) rest := by
  cases frame <;> rfl

lemma skipFrom_closer (frame : Frame) :
    skipFrom (fuel + 1) .closed (frame :: frames) (frame.closer :: rest) =
      skipFrom fuel .closed frames rest := by
  cases frame <;> rfl

lemma skipFrom_comma (frame : Frame) :
    skipFrom (fuel + 1) .closed (frame :: frames) (',' :: rest) =
      beforeValue frame rest >>= skipFrom fuel .value (frame :: frames) := by
  cases frame <;> rfl

end Frame

/-- The text is passed over where a value is expected, in two steps for each of its characters at
most. -/
def Skips (text : List Char) : Prop :=
  ∃ used ≤ 2 * text.length, ∀ fuel frames rest, EndsNumber rest →
    skipFrom (fuel + used) .value frames (text ++ rest) = skipFrom fuel .closed frames rest

structure SkipsItem (frame : Frame) (text : List Char) : Prop where
  starts : ∀ rest, ∃ c more, skipBlanks (text ++ rest) = c :: more ∧
    closes? frame (c :: more) = none
  passes : ∃ used ≤ 2 * text.length, ∀ fuel frames rest, EndsNumber rest →
    beforeValue frame (text ++ rest) >>= skipFrom (fuel + used) .value (frame :: frames) =
      skipFrom fuel .closed (frame :: frames) rest

lemma skips_scalar {c : Char} (hc : isBlank c = false) (hl : c ≠ '[') (ho : c ≠ '\x7b')
    (hs : ∀ rest, EndsNumber rest → skipScalar (c :: (text ++ rest)) = .ok rest) :
    Skips (c :: text) :=
  ⟨1, by simp; omega, fun _ _ rest hr => skipFrom_scalar hc hl ho (hs rest hr)⟩

lemma ElementText.skipsItem {value : List Char} (h : ElementText value text) (hv : Opens value)
    (hs : Skips value) : SkipsItem .list text := by
  obtain ⟨before, after, hb, ha, rfl⟩ := h
  constructor
  · intro rest
    obtain ⟨c, more, rfl, hc, hclose⟩ := hv
    refine ⟨c, more ++ (after ++ rest), ?_, ?_⟩
    · rw [List.append_assoc, skipBlanks_append hb, List.append_assoc, List.cons_append,
        skipBlanks_cons hc]
    · unfold closes?
      split
      next heq => exact absurd (List.cons.inj heq).1 hclose
      next => contradiction
      next => rfl
  · obtain ⟨used, hused, hskips⟩ := hs
    refine ⟨used, ?_, fun fuel frames rest hr => ?_⟩
    · simp only [List.length_append]
      omega
    · change skipFrom _ _ _ _ = _
      rw [List.append_assoc, skipFrom_value_append hb, List.append_assoc,
        hskips _ _ _ (ha.endsNumber hr), skipFrom_closed_append ha]

lemma MemberText.skipsItem {member : List Char × List Char} (h : MemberText member text)
    (hk : QuotedText member.1) (hs : Skips member.2) : SkipsItem .object text := by
  obtain ⟨before, behind, front, after, hb, hbehind, hf, ha, rfl⟩ := h
  constructor
  · intro rest
    refine ⟨'"', (member.1 ++ '"' :: (behind ++ ':' :: (front ++ (member.2 ++ after)))) ++ rest,
      ?_, rfl⟩
    rw [List.append_assoc, skipBlanks_append hb, List.cons_append, skipBlanks_cons (by decide)]
  · obtain ⟨used, hused, hskips⟩ := hs
    -- Keys and blanks take no step of their own.
    refine ⟨used, ?_, fun fuel frames rest hr => ?_⟩
    · simp only [List.length_append, List.length_cons]
      omega
    · have hkey := skipKey_member hk hb hbehind (front ++ (member.2 ++ (after ++ rest)))
      simp only [List.append_assoc, List.cons_append] at hkey ⊢
      change skipKey _ >>= _ = _
      rw [hkey]
      change skipFrom _ _ _ _ = _
      rw [skipFrom_value_append hf, hskips _ _ _ (ha.endsNumber hr), skipFrom_closed_append ha]

section Brackets

variable {α : Type} {item : α → List Char → Prop} {all : List α} {inside : List Char}

lemma Separated.starts (h : Separated item all text)
    (hi : ∀ a ∈ all, ∀ text, item a text → SkipsItem frame text) (rest : List Char) :
    ∃ c more, skipBlanks (text ++ rest) = c :: more ∧ closes? frame (c :: more) = none := by
  cases h with
  | last ha => exact (hi _ List.mem_cons_self _ ha).starts rest
  | more ha =>
    rw [List.append_assoc]
    exact (hi _ List.mem_cons_self _ ha).starts _

lemma Separated.passes (h : Separated item all text)
    (hi : ∀ a ∈ all, ∀ text, item a text → SkipsItem frame text) :
    ∃ used ≤ 2 * (text.length + 1), ∀ fuel frames rest,
      beforeValue frame (text ++ frame.closer :: rest) >>=
        skipFrom (fuel + used) .value (frame :: frames) = skipFrom fuel .closed frames rest := by
  have hends (c : Char) (hc : c = ',' ∨ c = frame.closer) (rest : List Char) :
      EndsNumber (c :: rest) := by
    apply endsNumber_cons
    obtain rfl | rfl := hc
    · decide
    · cases frame <;> decide
  induction h with
  | last ha =>
    obtain ⟨used, hused, hpasses⟩ := (hi _ List.mem_cons_self _ ha).passes
    refine ⟨used + 1, by omega, fun fuel frames rest => ?_⟩
    rw [← Nat.add_assoc, Nat.add_right_comm, hpasses _ _ _ (hends _ (.inr rfl) rest),
      Frame.skipFrom_closer]
  | @more a others text more ha _ ih =>
    obtain ⟨used, hused, hpasses⟩ := (hi _ List.mem_cons_self _ ha).passes
    obtain ⟨used', hused', hrest⟩ := ih fun b hb => hi b (List.mem_cons_of_mem _ hb)
    refine ⟨used' + 1 + used, ?_, fun fuel frames rest => ?_⟩
    · simp only [List.length_append, List.length_cons]
      omega
    · rw [List.append_assoc, List.cons_append, ← Nat.add_assoc,
        hpasses _ _ _ (hends _ (.inl rfl) _), ← Nat.add_assoc, Frame.skipFrom_comma, hrest]

lemma skips_enclosed (frame : Frame) (h : Enclosed item all inside)
    (hi : ∀ a ∈ all, ∀ text, item a text → SkipsItem frame text) :
    Skips (frame.opener :: (inside ++ [frame.closer])) := by
  cases h with
  | empty hb =>
    refine ⟨2, by simp, fun fuel frames rest _ => ?_⟩
    rw [List.cons_append, List.append_assoc, Frame.skipFrom_opener, skipFrom_opened,
      skipBlanks_append hb]
    cases frame <;> rfl
  | items hs =>
    obtain ⟨used, hused, hpasses⟩ := hs.passes hi
    refine ⟨used + 2, ?_, fun fuel frames rest _ => ?_⟩
    · simp only [List.length_cons, List.length_append, List.length_nil]
      omega
    · obtain ⟨c, more, hblanks, hcloses⟩ := hs.starts hi (frame.closer :: rest)
      rw [List.cons_append, List.append_assoc, List.singleton_append, ← Nat.add_assoc,
        Frame.skipFrom_opener, skipFrom_opened, hblanks, hcloses]
      change beforeValue frame (c :: more) >>= _ = _
      rw [← hblanks, beforeValue_skipBlanks, hpasses]

end Brackets

lemma skips_number (h : NumberText text) : Skips text := by
  cases h with
  | negative h =>
    exact skips_scalar (by decide) (by decide) (by decide) fun _ hr => skipNumber_unsigned h hr
  | unsigned h =>
    obtain ⟨c, more, rfl, hc⟩ := h.cons
    exact skips_scalar (not_isBlank_of_isDigit hc) (ne_of_isDigit hc (by decide))
      (ne_of_isDigit hc (by decide)) fun _ hr =>
        (skipScalar_isDigit hc).trans (skipNumber_unsigned h hr)

theorem ValueText.skips (h : ValueText text) : Skips text := by
  induction h with
  | null | true | false =>
    exact skips_scalar (by decide) (by decide) (by decide) fun rest _ => rfl
  | number h => exact skips_number h
  | @string body h =>
    refine skips_scalar (by decide) (by decide) (by decide) fun rest _ => ?_
    rw [List.append_assoc]
    exact skipString_quotedText h rest
  | array h hv ih =>
    exact skips_enclosed .list h fun value hm text ht =>
      ht.skipsItem (hv value hm).opens (ih value hm)
  | object h hk hv ih =>
    exact skips_enclosed .object h fun member hm text ht =>
      ht.skipsItem (hk member hm) (ih member hm)

theorem skipValue_append {front : List Char} (hf : Blank front) (h : ValueText text)
    (hr : EndsNumber rest) : skipValue (front ++ (text ++ rest)) = .ok rest := by
  obtain ⟨used, hused, hskips⟩ := h.skips
  obtain ⟨fuel, hfuel⟩ :
      ∃ fuel, 2 * (front ++ (text ++ rest)).length + 2 = fuel + 1 + used :=
    ⟨2 * (front ++ (text ++ rest)).length + 1 - used, by simp only [List.length_append]; omega⟩
  rw [skipValue, hfuel, skipFrom_value_append hf, hskips _ _ _ hr]
  rfl

end EventProcessing.Json
