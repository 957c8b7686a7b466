import EventProcessing.Json.Reader
import Mathlib.Tactic

namespace EventProcessing.Json

section Strings

variable {cs rest last : List Char}

lemma hexValue?_hexDigit {d : ℕ} (h : d < 16) : hexValue? (hexDigit d) = some d := by
  interval_cases d <;> rfl

lemma stringBody_cons {spot : Spot} {c : Char} (next : Spot) (read : List Char)
    (hs : stringStep true spot c rest = .ok (.next next read))
    (h : stringBody true next rest = .ok (cs, last)) :
    stringBody true spot (c :: rest) = .ok (read ++ cs, last) := by
  rw [stringBody, hs]
  dsimp only
  rw [h]
  rfl

lemma stringBody_simpleEscape {c e : Char} (hu : e ≠ 'u') (he : simpleEscape? e = some c)
    (h : stringBody true .plain rest = .ok (cs, last)) :
    stringBody true .plain ('\\' :: e :: rest) = .ok (c :: cs, last) := by
  refine stringBody_cons .escape [] rfl (stringBody_cons .plain [c] ?_ h)
  simp [stringStep, hu, he]

lemma stringBody_hexEscape {d e : ℕ} (hd : d < 2) (he : e < 16)
    (h : stringBody true .plain rest = .ok (cs, last)) :
    stringBody true .plain ('\\' :: 'u' :: '0' :: '0' :: hexDigit d :: hexDigit e :: rest) =
      .ok (Char.ofNat (d * 16 + e) :: cs, last) := by
  have hone : hexDone true (d * 16 + e) none = .ok (.next .plain [Char.ofNat (d * 16 + e)]) := by
    have hlow : ¬ 0xd800 ≤ d * 16 + e := by omega
    have hhigh : ¬ 0xdc00 ≤ d * 16 + e := by omega
    simp [hexDone, hlow, hhigh]
  refine stringBody_cons .escape [] rfl (stringBody_cons (.hex 4 0 none) [] rfl
    (stringBody_cons (.hex 3 0 none) [] rfl (stringBody_cons (.hex 2 0 none) [] rfl
      (stringBody_cons (.hex 1 d none) [] ?_ (stringBody_cons .plain [_] ?_ h)))))
  · simp [stringStep, hexValue?_hexDigit (hd.trans (by omega : 2 < 16))]
  · simp [stringStep, hexValue?_hexDigit he, hone]

lemma stringBody_escaped (c : Char) (h : stringBody true .plain rest = .ok (cs, last)) :
    stringBody true .plain (escaped c ++ rest) = .ok (c :: cs, last) := by
  have hofNat : ∀ n, c.toNat = n → c = Char.ofNat n := by
    rintro _ rfl
    exact (Char.ofNat_toNat c).symm
  unfold escaped
  split_ifs with hquote hslash hplain hb hf hn hr ht
  · subst hquote
    exact stringBody_simpleEscape (by decide) rfl h
  · subst hslash
    exact stringBody_simpleEscape (by decide) rfl h
  · refine stringBody_cons .plain [c] ?_ h
    simp [stringStep, hquote, hslash, Nat.not_lt.mpr hplain]
  · rw [hofNat _ hb]
    exact stringBody_simpleEscape (by decide) rfl h
  · rw [hofNat _ hf]
    exact stringBody_simpleEscape (by decide) rfl h
  · rw [hofNat _ hn]
    exact stringBody_simpleEscape (by decide) rfl h
  · rw [hofNat _ hr]
    exact stringBody_simpleEscape (by decide) rfl h
  · rw [hofNat _ ht]
    exact stringBody_simpleEscape (by decide) rfl h
  · have hhex := stringBody_hexEscape (d := c.toNat / 16) (e := c.toNat % 16) (by omega)
      (Nat.mod_lt _ (by omega)) h
    rwa [Nat.div_add_mod', Char.ofNat_toNat] at hhex

lemma stringBody_flatMap_escaped (cs rest : List Char) :
    stringBody true .plain (cs.flatMap escaped ++ '"' :: rest) = .ok (cs, rest) := by
  induction cs with
  | nil => rfl
  | cons c cs ih =>
    rw [List.flatMap_cons, List.append_assoc]
    exact stringBody_escaped c ih

lemma readString_flatMap_escaped (text : String) (rest : List Char) :
    readString (text.toList.flatMap escaped ++ '"' :: rest) = .ok (text, rest) := by
  rw [readString, stringBody_flatMap_escaped, Except.map, String.ofList_toList]

lemma stringText_append (text : String) (rest : List Char) :
    stringText text ++ rest = '"' :: (text.toList.flatMap escaped ++ '"' :: rest) := by
  simp [stringText]

end Strings

section Numbers

variable {rest digits : List Char} {n : ℕ}

def EndsNumber (rest : List Char) : Prop :=
  ∀ c ∈ rest.head?, c.isDigit = false ∧ c ≠ '.' ∧ c ≠ 'e' ∧ c ≠ 'E'

lemma endsNumber_cons {c : Char} (h : c.isDigit = false ∧ c ≠ '.' ∧ c ≠ 'e' ∧ c ≠ 'E') :
    EndsNumber (c :: rest) := by
  rintro _ ⟨⟩
  exact h

lemma le_natOf (digits : List Char) (n : ℕ) :
    n ≤ digits.foldl (fun n c => n * 10 + digitValue c) n := by
  induction digits generalizing n with
  | nil => exact le_rfl
  | cons c rest ih => exact (by omega : n ≤ n * 10 + digitValue c).trans (ih _)

lemma absorb_of_lt (digits : List Char) (n : ℕ)
    (h : digits.foldl (fun n c => n * 10 + digitValue c) n < UInt64.size) :
    absorb n digits = (digits.foldl (fun n c => n * 10 + digitValue c) n, 0) := by
  induction digits generalizing n with
  | nil => rfl
  | cons c rest ih =>
    rw [List.foldl_cons] at h ⊢
    rw [absorb, if_pos ((le_natOf rest _).trans_lt h), ih _ h]

lemma natOf_toDigits (n : ℕ) : natOf (Nat.toDigits 10 n) = n := by
  have h : natOf (Nat.toDigits 10 n) = Nat.ofDigitChars 10 (Nat.toDigits 10 n) 0 := by
    rw [Nat.ofDigitChars_eq_foldl]
    exact congrArg (List.foldl · 0 _) (funext fun n => funext fun c => by
      rw [mul_comm]
      rfl)
  rw [h, Nat.ofDigitChars_ten_toDigits]

lemma absorb_toDigits (h : n < UInt64.size) : absorb 0 (Nat.toDigits 10 n) = (n, 0) := by
  have hn := natOf_toDigits n
  rw [natOf] at hn
  rw [absorb_of_lt _ _ (by rwa [hn]), hn]

lemma isDigit_of_mem_toDigits {c : Char} (h : c ∈ Nat.toDigits 10 n) : c.isDigit = true :=
  Nat.isDigit_of_mem_toDigits (by decide) (by decide) h

lemma toDigits_cons (n : ℕ) : ∃ c more, Nat.toDigits 10 n = c :: more ∧ c.isDigit = true := by
  obtain ⟨c, more, hdigits⟩ := List.exists_cons_of_ne_nil (Nat.toDigits_ne_nil (n := n) (b := 10))
  exact ⟨c, more, hdigits, isDigit_of_mem_toDigits (hdigits ▸ List.mem_cons_self)⟩

lemma digitsOf_toDigits_append (h : EndsNumber rest) :
    digitsOf (Nat.toDigits 10 n ++ rest) = Nat.toDigits 10 n := by
  rw [digitsOf, List.takeWhile_append_of_pos fun _ => isDigit_of_mem_toDigits]
  cases rest with
  | nil => simp
  | cons c rest => simp [(h c rfl).1]

lemma afterDigits_toDigits_append (h : EndsNumber rest) :
    afterDigits (Nat.toDigits 10 n ++ rest) = rest := by
  rw [afterDigits, List.dropWhile_append_of_pos fun _ => isDigit_of_mem_toDigits]
  cases rest with
  | nil => rfl
  | cons c rest => simp [(h c rfl).1]

lemma toDigits_of_head?_eq_zero (h : (Nat.toDigits 10 n).head? = some '0') :
    Nat.toDigits 10 n = ['0'] := by
  induction n using Nat.strong_induction_on with
  | h n ih =>
    obtain hlt | hle := Nat.lt_or_ge n 10
    · rw [Nat.toDigits_of_lt_base hlt] at h ⊢
      rw [List.head?_singleton, Option.some.injEq] at h
      rw [h]
    · rw [Nat.toDigits_of_base_le (by decide) hle] at h
      rw [List.head?_append_of_ne_nil _ Nat.toDigits_ne_nil] at h
      have hzero := ih (n / 10) (by omega) h
      have hn := natOf_toDigits (n / 10)
      rw [hzero] at hn
      change 0 = n / 10 at hn
      omega

lemma readNumber_toDigits {negative : Bool} (hn : n < UInt64.size) (h : EndsNumber rest) :
    readNumber negative (Nat.toDigits 10 n ++ rest) = integerOf negative n rest := by
  obtain ⟨c, more, hdigits, hc⟩ := toDigits_cons n
  have hlead : ¬ (c = '0' ∧ ((more ++ rest).head?.any Char.isDigit) = true) := by
    rintro ⟨rfl, hany⟩
    have hzero := toDigits_of_head?_eq_zero (n := n) (by rw [hdigits]; rfl)
    obtain rfl : more = [] := by simpa [hdigits] using hzero
    cases rest with
    | nil => simp at hany
    | cons d rest => simp [(h d rfl).1] at hany
  have hdigitsOf := digitsOf_toDigits_append (n := n) h
  have hafter := afterDigits_toDigits_append (n := n) h
  rw [hdigits, List.cons_append] at hdigitsOf hafter ⊢
  rw [readNumber]
  simp only [hc, Bool.not_true, Bool.false_eq_true, if_false, if_neg hlead, hdigitsOf, hafter,
    ← hdigits, absorb_toDigits hn]
  split
  · next d => exact absurd rfl (h _ rfl).2.1
  · exact absurd rfl (h _ rfl).2.2.1
  · exact absurd rfl (h _ rfl).2.2.2
  · rfl

end Numbers

end EventProcessing.Json
