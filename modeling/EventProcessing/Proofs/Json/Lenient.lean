import EventProcessing.Proofs.Json.Skipping
import EventProcessing.Proofs.Messages

namespace EventProcessing.Json

variable {α β : Type} {reader : Reader α} {text rest body cs : List Char} {value value' : α}
  {c : Char} {n bound : ℕ} {expected : String}

lemma endsNumber_nil : EndsNumber [] := by
  rintro _ ⟨⟩

lemma Reads.unique (h : Reads reader text value) (h' : Reads reader text value') :
    value = value' := by
  have heq := h [] endsNumber_nil
  rw [h' [] endsNumber_nil] at heq
  exact (Prod.mk.inj (Except.ok.inj heq)).1.symm

lemma Refuses.not_reads (h : Refuses reader text) : ¬ Reads reader text value := by
  intro hv
  obtain ⟨fault, hfault⟩ := h [] endsNumber_nil
  rw [hv [] endsNumber_nil] at hfault
  cases hfault

structure Lenient (reader : Reader α) (text : List Char) : Prop where
  settles : Settles reader text
  padded : ∀ front rest, Blank front → EndsNumber rest →
    reader (front ++ (text ++ rest)) = reader (text ++ rest)

lemma bind_error {x : Except Fault α} {f : α → Except Fault β}
    (h : ∀ a, x = .ok a → ∃ fault, f a = .error fault) : ∃ fault, (x >>= f) = .error fault := by
  cases x with
  | error fault => exact ⟨fault, rfl⟩
  | ok a => exact h a rfl

lemma mismatch_error (expected : String) (cs : List Char) :
    ∃ fault, (mismatch expected cs : Except Fault α) = .error fault :=
  bind_error fun _ _ => ⟨_, rfl⟩

section Naturals

lemma readNatural_isDigit (hc : c.isDigit = true) : readNatural expected bound (c :: cs) =
    readNumber false (c :: cs) >>= fun r =>
      naturalOf expected bound r.1 >>= fun n => .ok (n, r.2) := by
  rw [readNatural, skipBlanks_cons (not_isBlank_of_isDigit hc)]
  split
  case h_1 heq => cases heq
  case h_2 heq => exact absurd (List.cons.inj heq).1 (ne_of_isDigit hc (by decide))
  case h_3 heq =>
    rw [← (List.cons.inj heq).1, ← (List.cons.inj heq).2, if_pos hc]
    rfl

lemma readNatural_other (hb : isBlank c = false) (hm : c ≠ '-') (hc : c.isDigit = false) :
    readNatural expected bound (c :: cs) = mismatch expected (c :: cs) := by
  rw [readNatural, skipBlanks_cons hb]
  split
  case h_1 heq => cases heq
  case h_2 heq => exact absurd (List.cons.inj heq).1 hm
  case h_3 heq =>
    rw [← (List.cons.inj heq).1, ← (List.cons.inj heq).2, if_neg (by simp [hc])]

lemma refuses_other (hb : isBlank c = false) (hm : c ≠ '-') (hc : c.isDigit = false) :
    Refuses (readNatural expected bound) (c :: text) := by
  intro rest _
  rw [List.cons_append, readNatural_other hb hm hc]
  exact mismatch_error _ _

lemma Unnatural.naturalOf_error {result : Except Fault (Front Number)} (h : Unnatural result) :
    ∃ fault, (result >>= fun r => naturalOf expected bound r.1 >>= fun n => .ok (n, r.2)) =
      Except.error (α := Front ℕ) fault := by
  refine bind_error fun r hr => bind_error fun n hn => ?_
  obtain ⟨fault, hfault⟩ := h r.1 r.2 hr expected bound
  rw [hn] at hfault
  cases hfault

def NaturalText (bound : ℕ) (text : List Char) (n : ℕ) : Prop :=
  n < bound ∧ text = Nat.toDigits 10 n

lemma NaturalText.reads (h : NaturalText bound text n) (hb : bound ≤ UInt64.size) :
    Reads (readNatural expected bound) text n := by
  obtain ⟨hn, rfl⟩ := h
  exact readNatural_naturalText expected (hn.trans_le hb) hn

lemma refuses_unsigned (h : UnsignedText text) (ht : ∀ n, ¬ NaturalText bound text n) :
    Refuses (readNatural expected bound) text := by
  cases h with
  | @mk n fraction exponent hf he =>
    intro rest hr
    obtain ⟨c, more, hdigits, hc⟩ := toDigits_cons n
    have hread : readNatural expected bound
        (Nat.toDigits 10 n ++ (fraction ++ exponent) ++ rest) =
        readNumber false (Nat.toDigits 10 n ++ (fraction ++ exponent) ++ rest) >>= fun r =>
          naturalOf expected bound r.1 >>= fun n => .ok (n, r.2) := by
      rw [hdigits]
      exact readNatural_isDigit hc
    rw [hread]
    by_cases h : fraction ++ exponent ≠ [] ∨ UInt64.size ≤ n
    · rw [List.append_assoc, List.append_assoc]
      exact (unnatural_of_unsigned hf he hr h).naturalOf_error
    · -- Digits alone of a number that is read, but out of the bound.
      rw [not_or, not_not, not_le] at h
      obtain ⟨hnil, hn⟩ := h
      have hbound : ¬ n < bound := fun hlt => ht n ⟨hlt, by rw [hnil, List.append_nil]⟩
      have hout : naturalOf expected bound (.integer n) = .error (.outOfRange n expected) :=
        if_neg (by omega)
      rw [hnil, List.append_nil, readNumber_toDigits hn hr]
      change ∃ fault, (naturalOf expected bound (.integer n) >>= _) = Except.error fault
      rw [hout]
      exact ⟨_, rfl⟩

lemma readNatural_cases (h : ValueText text) :
    (∃ n, NaturalText bound text n) ∨ Refuses (readNatural expected bound) text := by
  cases h with
  | null | true | false | string | array | object =>
    exact .inr (refuses_other (by decide) (by decide) (by decide))
  | number h =>
    cases h with
    | negative h => exact .inr fun rest _ => (unnatural_readNumber _).naturalOf_error
    | unsigned h =>
      by_cases hn : ∃ n, NaturalText bound text n
      · exact .inl hn
      · exact .inr (refuses_unsigned h (not_exists.mp hn))

lemma naturalText_of_reads (h : ValueText text) (hb : bound ≤ UInt64.size)
    (hr : Reads (readNatural expected bound) text n) : NaturalText bound text n := by
  rcases readNatural_cases h with ⟨m, hm⟩ | hrefuses
  · rwa [hr.unique (hm.reads hb)]
  · exact absurd hr hrefuses.not_reads

lemma ValueText.lenient_readNatural (h : ValueText text) (hb : bound ≤ UInt64.size) :
    Lenient (readNatural expected bound) text where
  settles := (readNatural_cases h).imp_left fun ⟨n, hn⟩ => ⟨n, hn.reads hb⟩
  padded front rest hf _ := by
    rw [readNatural, readNatural, skipBlanks_append hf]

end Naturals

section Variants

variable {names : List (String × α)} {name : String} {depth : ℕ}

lemma readUnit_other (hb : isBlank c = false) (hn : c ≠ 'n') :
    readUnit (c :: cs) = mismatch "unit" (c :: cs) := by
  rw [readUnit, skipBlanks_cons hb]
  split
  case h_1 heq => cases heq
  case h_2 heq => exact absurd (List.cons.inj heq).1 hn
  case h_3 => rfl

lemma readUnit_cases (h : ValueText text) :
    text = ['n', 'u', 'l', 'l'] ∨ ∀ rest, ∃ fault, readUnit (text ++ rest) = .error fault := by
  have hother {c : Char} {more : List Char} (hb : isBlank c = false) (hn : c ≠ 'n')
      (rest : List Char) : ∃ fault, readUnit (c :: more ++ rest) = .error fault := by
    rw [List.cons_append, readUnit_other hb hn]
    exact mismatch_error _ _
  cases h with
  | null => exact .inl rfl
  | true | false | string | array | object => exact .inr (hother (by decide) (by decide))
  | number h =>
    cases h with
    | negative h => exact .inr (hother (by decide) (by decide))
    | unsigned h =>
      obtain ⟨c, more, rfl, hc⟩ := h.cons
      exact .inr (hother (not_isBlank_of_isDigit hc) (ne_of_isDigit hc (by decide)))

lemma readVariant_string (hs : readString (body ++ '"' :: rest) = .ok (name, rest)) :
    readVariant names depth ('"' :: (body ++ '"' :: rest)) =
      (readVariant.variant names name).map fun value => (value, rest) := by
  change (readString (body ++ '"' :: rest) >>= _) = _
  rw [hs]
  rfl

lemma reads_variant (hs : Spells body name.toList) (hv : names.lookup name = some value) :
    Reads (readVariant names depth) ('"' :: (body ++ ['"'])) value := by
  intro rest _
  rw [List.cons_append, List.append_assoc, List.singleton_append,
    readVariant_string (readString_spells hs rest), readVariant.variant, hv]
  rfl

lemma settles_variant_string (h : QuotedText body) :
    Settles (readVariant names depth) ('"' :: (body ++ ['"'])) := by
  have happend (rest : List Char) :
      '"' :: (body ++ ['"']) ++ rest = '"' :: (body ++ '"' :: rest) := by
    rw [List.cons_append, List.append_assoc, List.singleton_append]
  rcases readString_cases h with ⟨name, hread⟩ | herror
  · cases hv : readVariant.variant names name with
    | ok value =>
      refine .inl ⟨value, fun rest _ => ?_⟩
      rw [happend, readVariant_string (hread rest), hv]
      rfl
    | error fault =>
      refine .inr fun rest _ => ⟨fault, ?_⟩
      rw [happend, readVariant_string (hread rest), hv]
      rfl
  · refine .inr fun rest _ => ?_
    obtain ⟨fault, hfault⟩ := herror rest
    refine ⟨fault, ?_⟩
    rw [happend]
    change (readString (body ++ '"' :: rest) >>= _) = _
    rw [hfault]
    rfl

lemma readVariant_named (names : List (String × α)) (depth : ℕ) {more last : List Char}
    (hk : nextKey true cs = .ok (some name, more))
    (hc : readColon more = .ok last) : readVariant names (depth + 1) ('\x7b' :: cs) =
      readVariant.variant names name >>= fun value => readUnit last >>= fun rest =>
        match skipBlanks rest with
        | [] => .error .endInObject
        | '\x7d' :: rest => .ok (value, rest)
        | _ => .error .expectedValue := by
  change (nextKey true cs >>= _) = _
  rw [hk]
  change (readVariant.variant names name >>= fun value => readColon more >>= _) = _
  rw [hc]
  rfl

lemma nextKey_member {front : List Char} (hf : Blank front) :
    nextKey true (front ++ '"' :: cs) = (readString cs).map fun r => (some r.1, r.2) := by
  rw [nextKey, skipBlanks_append hf]
  rfl

lemma readColon_append {front : List Char} (hf : Blank front) (rest : List Char) :
    readColon (front ++ ':' :: rest) = .ok rest := by
  rw [readColon, skipBlanks_append hf]
  rfl

lemma variant_member {member : List Char × List Char} (h : MemberText member text)
    (hk : QuotedText member.1) (hv : ValueText member.2) :
    (∃ value : α, ∀ c rest, isBlank c = false →
      readVariant names (depth + 1) ('\x7b' :: (text ++ c :: rest)) =
        if c = '\x7d' then .ok (value, rest) else .error .expectedValue) ∨
    ∀ rest, ∃ fault, readVariant names (depth + 1) ('\x7b' :: (text ++ rest)) = .error fault := by
  obtain ⟨before, behind, front, after, hb, hbehind, hf, ha, rfl⟩ := h
  have happend (rest : List Char) : before ++ '"' :: (member.1 ++ '"' ::
      (behind ++ ':' :: (front ++ (member.2 ++ after)))) ++ rest =
      before ++ '"' :: (member.1 ++ '"' ::
        (behind ++ ':' :: (front ++ (member.2 ++ (after ++ rest))))) := by
    simp
  simp only [happend]
  rcases readString_cases hk with ⟨name, hread⟩ | herror
  · have hnamed (rest : List Char) := readVariant_named names depth
      (by rw [nextKey_member hb, hread]; rfl) (readColon_append hbehind rest)
    simp only [hnamed]
    cases readVariant.variant names name with
    | error fault => exact .inr fun rest => ⟨fault, rfl⟩
    | ok value =>
      have hunit (rest : List Char) :
          readUnit (front ++ (member.2 ++ rest)) = readUnit (member.2 ++ rest) := by
        rw [readUnit, readUnit, skipBlanks_append hf]
      simp only [hunit]
      rcases readUnit_cases hv with hnull | herror
      · refine .inl ⟨value, fun c rest hc => ?_⟩
        rw [hnull]
        change (match skipBlanks (after ++ c :: rest) with
          | [] => Except.error Fault.endInObject
          | '\x7d' :: rest => .ok (value, rest)
          | _ => .error .expectedValue) = _
        rw [skipBlanks_append ha, skipBlanks_cons hc]
        split
        next heq => cases heq
        next heq =>
          cases heq
          rfl
        next hother =>
          rw [if_neg]
          rintro rfl
          exact hother _ rfl
      · refine .inr fun rest => ?_
        obtain ⟨fault, hfault⟩ := herror (after ++ rest)
        refine ⟨fault, ?_⟩
        rw [hfault]
        rfl
  · refine .inr fun rest => ?_
    obtain ⟨fault, hfault⟩ := herror (behind ++ ':' :: (front ++ (member.2 ++ (after ++ rest))))
    refine ⟨fault, ?_⟩
    change (nextKey true _ >>= _) = _
    rw [nextKey_member hb, hfault]
    rfl

lemma settles_variant_object {members : List (List Char × List Char)} {inside : List Char}
    (h : Enclosed MemberText members inside) (hk : ∀ member ∈ members, QuotedText member.1)
    (hv : ∀ member ∈ members, ValueText member.2) :
    Settles (readVariant names depth) ('\x7b' :: (inside ++ ['\x7d'])) := by
  have happend (rest : List Char) :
      '\x7b' :: (inside ++ ['\x7d']) ++ rest = '\x7b' :: (inside ++ '\x7d' :: rest) := by
    rw [List.cons_append, List.append_assoc, List.singleton_append]
  unfold Settles Reads Refuses
  simp only [happend]
  cases depth with
  | zero => exact .inr fun rest _ => ⟨_, rfl⟩
  | succ depth =>
    cases h with
    | empty hb =>
      refine .inr fun rest _ => ⟨.expectedValue, ?_⟩
      change (nextKey true _ >>= _) = _
      rw [nextKey, skipBlanks_append hb]
      rfl
    | items hs =>
      cases hs with
      | last ha =>
        rcases variant_member ha (hk _ List.mem_cons_self) (hv _ List.mem_cons_self) with
          ⟨value, hvalue⟩ | herror
        · exact .inl ⟨value, fun rest _ => hvalue _ rest (by decide)⟩
        · exact .inr fun rest _ => herror _
      | more ha _ =>
        refine .inr fun rest _ => ?_
        rw [List.append_assoc]
        rcases variant_member ha (hk _ List.mem_cons_self) (hv _ List.mem_cons_self) with
          ⟨value, hvalue⟩ | herror
        · exact ⟨_, hvalue _ _ (by decide)⟩
        · exact herror _

lemma readVariant_other (hb : isBlank c = false) (hq : c ≠ '"') (ho : c ≠ '\x7b') :
    readVariant names depth (c :: cs) = .error .expectedValue := by
  unfold readVariant
  rw [skipBlanks_cons hb]
  split
  case h_1 heq => cases heq
  case h_2 heq => exact absurd (List.cons.inj heq).1 hq
  case h_3 heq => exact absurd (List.cons.inj heq).1 ho
  case h_4 heq => exact absurd (List.cons.inj heq).1 ho
  case h_5 => rfl

lemma ValueText.lenient_readVariant (h : ValueText text) :
    Lenient (readVariant names depth) text where
  settles := by
    cases h with
    | null | true | false | array =>
      exact .inr fun rest _ => ⟨_, readVariant_other (by decide) (by decide) (by decide)⟩
    | number h =>
      cases h with
      | negative h =>
        exact .inr fun rest _ => ⟨_, readVariant_other (by decide) (by decide) (by decide)⟩
      | unsigned h =>
        obtain ⟨c, more, rfl, hc⟩ := h.cons
        exact .inr fun rest _ => ⟨_, readVariant_other (not_isBlank_of_isDigit hc)
          (ne_of_isDigit hc (by decide)) (ne_of_isDigit hc (by decide))⟩
    | string h => exact settles_variant_string h
    | object h hk hv => exact settles_variant_object h hk hv
  padded front rest hf _ := by
    unfold readVariant
    rw [skipBlanks_append hf]

end Variants

end EventProcessing.Json
