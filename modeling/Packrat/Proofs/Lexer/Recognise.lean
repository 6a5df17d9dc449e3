import Packrat.Proofs.Pattern.Greedy
import Packrat.Proofs.Pattern.Quoted

namespace Packrat

open Text (Cursor byteSize)

namespace Direct

variable {p : Char → Bool} {cs text : List Char}

theorem eq_append_of_run? (h : run? p cs = some text) : text ≠ [] ∧ cs = text ++ cs.dropWhile p := by
  cases cs with
  | nil => cases h
  | cons c cs =>
    rw [run?] at h
    split at h
    · next hc =>
      cases h
      rw [List.dropWhile_cons_of_pos hc, List.cons_append, List.takeWhile_append_dropWhile]
      exact ⟨List.cons_ne_nil _ _, rfl⟩
    · cases h

def unknown? : List Char → Option (List Char)
  | [] => none
  | c :: cs => if c = '\n' then none else some (c :: cs.takeWhile fun c => !Text.isBlank c)

theorem sign_other {c : Char} (hplus : c ≠ '+') (hminus : c ≠ '-') (cs : List Char) :
    sign (c :: cs) = [] := by
  unfold sign
  split
  · next heq => exact absurd (List.cons.inj heq).1 hplus
  · next heq => exact absurd (List.cons.inj heq).1 hminus
  · rfl

theorem isPrefix_sign (cs : List Char) : sign cs <+: cs := by
  unfold sign
  split
  · exact ⟨_, rfl⟩
  · exact ⟨_, rfl⟩
  · exact List.nil_prefix

theorem isPrefix_exponent (cs : List Char) : exponent cs <+: cs := by
  unfold exponent
  split
  · next cs =>
    split
    · next digits hdigits =>
      have hrun := (eq_append_of_run? hdigits).2
      refine (List.prefix_cons_inj _).2 ⟨(cs.drop (sign cs).length).dropWhile Char.isDigit, ?_⟩
      change sign cs ++ digits ++ _ = cs
      rw [List.append_assoc, ← hrun]
      exact List.prefix_iff_eq_append.1 (isPrefix_sign cs)
    · exact List.nil_prefix
  · exact List.nil_prefix

def behindPoint (cs : List Char) : List Char :=
  (cs.dropWhile Char.isDigit).tail.dropWhile Char.isDigit

theorem behindPoint_eq {rest : List Char} (h : cs.dropWhile Char.isDigit = '.' :: rest) :
    behindPoint cs = rest.dropWhile Char.isDigit := by
  rw [behindPoint, h, List.tail_cons]

theorem eq_append_of_fraction? (h : fraction? cs = some text) :
    text ≠ [] ∧ cs = text ++ (behindPoint cs).drop (exponent (behindPoint cs)).length := by
  unfold fraction? at h
  split at h
  · next rest hrest =>
    obtain ⟨digits, hdigits, rfl⟩ := Option.map_eq_some_iff.1 h
    have hexponent := List.prefix_iff_eq_append.1 (isPrefix_exponent (rest.dropWhile Char.isDigit))
    refine ⟨by simp, ?_⟩
    calc cs = cs.takeWhile Char.isDigit ++ '.' :: rest := by
          rw [← hrest, List.takeWhile_append_dropWhile]
      _ = cs.takeWhile Char.isDigit ++ '.' :: (digits ++ rest.dropWhile Char.isDigit) := by
          rw [← (eq_append_of_run? hdigits).2]
      _ = _ := by
          rw [behindPoint_eq hrest]
          conv_lhs => rw [← hexponent]
          simp
  · cases h

variable {q c : Char}

theorem throughBare?_other (hc : c ≠ q) (behindBackslash : Bool) (cs : List Char) :
    throughBare? q behindBackslash (c :: cs) =
      (throughBare? q (c == '\\') cs).map fun text => c :: text :=
  if_neg fun h => hc h.1

theorem throughBare?_self {behindBackslash : Bool} {cs : List Char}
    (hhead : behindBackslash = true → (q :: cs).head? ≠ some q) :
    throughBare? q behindBackslash (q :: cs) = some [q] :=
  if_pos ⟨rfl, by simpa using hhead⟩

theorem throughLast?_other (hc : c ≠ q) (cs : List Char) :
    throughLast? q (c :: cs) = (throughLast? q cs).map fun text => c :: text := by
  rw [throughLast?]
  cases throughLast? q cs with
  | none => exact if_neg hc
  | some text => rfl

theorem throughLast?_self (cs : List Char) :
    throughLast? q (q :: cs) = ((throughLast? q cs).map fun text => q :: text).or (some [q]) := by
  rw [throughLast?]
  cases throughLast? q cs with
  | none => exact if_pos rfl
  | some text => rfl

end Direct

namespace Pattern

open Direct

/-- The pattern takes at every place the text that is read there. -/
structure Recognises (p : Pattern) (read? : List Char → Option (List Char)) : Prop where
  missed {place : Cursor} : read? place.after = none → p.matchAt? place = none
  found {place : Cursor} {text : List Char} : read? place.after = some text →
    text ≠ [] ∧ ∃ rest, place.after = text ++ rest ∧
      p.matchAt? place = some ⟨place.pass text rest, []⟩

theorem Recognises.of_bind {p : Pattern} {read? : List Char → Option (List Char)}
    (rest : List Char → List Char)
    (hmatch : ∀ place, p.matchAt? place =
      (read? place.after).bind fun text => some ⟨place.pass text (rest place.after), []⟩)
    (htext : ∀ cs text, read? cs = some text → text ≠ [] ∧ cs = text ++ rest cs) :
    p.Recognises read? where
  missed h := by rw [hmatch, h]; rfl
  found {place text} h := by
    obtain ⟨hne, heq⟩ := htext _ _ h
    exact ⟨hne, _, heq, by rw [hmatch, h]; rfl⟩

theorem settled_some (cs : CharSet) : Settled cs some := .inl fun _ => rfl

theorem recognises_rep_one {cs : CharSet} {p : Char → Bool} (hp : cs.mem = p) :
    (rep 1 none true (set cs)).Recognises (run? p) := by
  subst hp
  refine .of_bind (fun text => text.dropWhile cs.mem) (fun place => ?_) fun _ _ h =>
    eq_append_of_run? h
  exact run_rep_one (Nat.le_refl _) (settled_some cs)

theorem recognises_blanks : blanks.Recognises (run? isBlank) := by
  refine recognises_rep_one (funext fun c => ?_)
  simp [CharSet.unions, isBlank, Bool.or_assoc]

theorem recognises_lineBreaks : lineBreaks.Recognises (run? (· == '\n')) :=
  recognises_rep_one rfl

theorem recognises_identifier : identifier.Recognises word? := by
  have hstart : (CharSet.unions [.range 'a' 'z', .range 'A' 'Z', .single '_']).mem = isWordStart := by
    funext c
    rw [Bool.eq_iff_iff]
    simp [CharSet.unions, isWordStart, Char.isAlpha, Char.isUpper, Char.isLower,
      Char.le_def]
    tauto
  have hpart : (CharSet.unions [.range 'a' 'z', .range 'A' 'Z', .range '0' '9', .single '_']).mem =
      isWordPart := by
    funext c
    rw [Bool.eq_iff_iff]
    simp [CharSet.unions, isWordPart, Char.isAlphanum, Char.isAlpha, Char.isUpper,
      Char.isLower, Char.isDigit, Char.le_def]
    tauto
  refine .of_bind (fun text => text.tail.dropWhile isWordPart) (fun place => ?_) ?_
  · rw [identifier, matchAt?, run_cat]
    cases hafter : place.after with
    | nil => exact run_set_nil hafter
    | cons c rest =>
      rw [run_set_cons hafter, hstart, word?]
      split
      · rw [run_rep_zero _ (settled_some _), hpart, Progress.pass_pass]
        · rfl
        · exact Nat.le_succ _
      · rfl
  · rintro (_ | ⟨c, cs⟩) text h
    · cases h
    · rw [word?] at h
      split at h
      · cases h
        exact ⟨List.cons_ne_nil _ _, by simp⟩
      · cases h

theorem recognises_hexNumber : hexNumber.Recognises hexNumber? := by
  have hdigit : (CharSet.unions [.range '0' '9', .range 'a' 'f', .range 'A' 'F']).mem =
      isHexDigit := by
    funext c
    simp [CharSet.unions, isHexDigit, Char.isDigit, Char.le_def, Bool.or_assoc]
  refine .of_bind (fun text => (text.drop 2).dropWhile isHexDigit) (fun place => ?_) ?_
  · rw [hexNumber, matchAt?, run_cats]
    unfold hexNumber?
    split
    · next cs hafter =>
      rw [run_single_self hafter, run_cats, run_single_self (Progress.after_pass _ _ _),
        run_cats_last, run_rep_one _ (settled_some _), hdigit, Progress.after_pass, Progress.pass_pass, hafter]
      · cases run? isHexDigit cs with
        | none => rfl
        | some digits => exact congrArg some (Progress.pass_pass _ _ _ _ _)
      · rw [Progress.after_pass, hafter]
        exact Nat.le_add_right _ 2
    · next hne =>
      by_cases hzero : place.after.head? = some '0'
      · obtain ⟨cs, hafter⟩ := List.head?_eq_some_iff.1 hzero
        rw [run_single_self hafter, run_cats, run_single_of_ne]
        · rfl
        · intro hx
          obtain ⟨rest, hrest⟩ := List.head?_eq_some_iff.1 hx
          rw [Progress.after_pass] at hrest
          exact hne rest (hrest ▸ hafter)
      · rw [run_single_of_ne hzero]
        rfl
  · intro cs text h
    unfold hexNumber? at h
    split at h
    · next cs =>
      obtain ⟨digits, hdigits, rfl⟩ := Option.map_eq_some_iff.1 h
      have heq := (eq_append_of_run? hdigits).2
      exact ⟨List.cons_ne_nil _ _, by simpa using heq⟩
    · cases h

section Number

variable {fuel : Nat} {s : Progress} {k : Continuation}

theorem run_sign (hk : ∀ t c rest, t.cursor.after = c :: rest → c = '+' ∨ c = '-' → k t = none) :
    run fuel (optional (alt (set (.single '+')) (set (.single '-')))) s k =
      k (s.pass (sign s.cursor.after) (s.cursor.after.drop (sign s.cursor.after).length)) := by
  have hpass := s.pass_nil
  rw [run_optional, run_alt]
  cases hafter : s.cursor.after with
  | nil =>
    rw [hafter] at hpass
    rw [run_set_nil hafter, run_set_nil hafter]
    exact congrArg k hpass.symm
  | cons c rest =>
    rw [hafter] at hpass
    by_cases hplus : c = '+'
    · subst hplus
      rw [run_single_self hafter, run_single_of_ne (by simp [hafter]), hk s _ _ hafter (.inl rfl)]
      simp [sign]
    · by_cases hminus : c = '-'
      · subst hminus
        rw [run_single_self hafter, run_single_of_ne (by simp [hafter]), hk s _ _ hafter (.inr rfl)]
        simp [sign]
      · rw [run_single_of_ne (by simp [hafter, hplus]), run_single_of_ne (by simp [hafter, hminus]),
          sign_other hplus hminus]
        exact congrArg k hpass.symm

theorem run_digits (hfuel : s.cursor.after.length ≤ fuel) (hk : ∀ t, (k t).isSome) :
    run fuel (digits 1) s k =
      (run? Char.isDigit s.cursor.after).bind fun text =>
        k (s.pass text (s.cursor.after.dropWhile Char.isDigit)) :=
  run_rep_one hfuel (.inl hk)

theorem run_exponent (hfuel : s.cursor.after.length ≤ fuel) :
    run fuel Pattern.exponent s some =
      some (s.pass (Direct.exponent s.cursor.after)
        (s.cursor.after.drop (Direct.exponent s.cursor.after).length)) := by
  have hpass := s.pass_nil
  rw [Pattern.exponent, run_optional, run_cats]
  unfold Direct.exponent
  split
  · next cs hafter =>
    rw [hafter, List.length_cons] at hfuel
    have hlength (n : Nat) : (cs.drop n).length ≤ fuel := by
      rw [List.length_drop]
      omega
    rw [run_single_self hafter, run_cats, run_sign]
    · rw [Progress.after_pass, Progress.pass_pass, run_cats_last, run_digits (hlength _) fun _ => rfl,
        Progress.after_pass]
      cases hdigits : run? Char.isDigit (cs.drop (sign cs).length) with
      | none => exact congrArg some hpass.symm
      | some digits =>
        have hrest : (cs.drop (sign cs).length).drop digits.length =
            (cs.drop (sign cs).length).dropWhile Char.isDigit := by
          conv_lhs => rw [(eq_append_of_run? hdigits).2]
          exact List.drop_left
        have hdrop : s.cursor.after.drop ('e' :: sign cs ++ digits).length =
            (cs.drop (sign cs).length).dropWhile Char.isDigit := by
          rw [hafter, List.cons_append, List.length_cons, List.drop_succ_cons, List.length_append,
            ← List.drop_drop, hrest]
        rw [Option.bind_some, Progress.pass_pass]
        exact congrArg (fun rest => some (s.pass _ rest)) hdrop.symm
    · intro t c rest ht hc
      have hdigit : (CharSet.range '0' '9').mem c = false := by
        rcases hc with rfl | rfl
        · rfl
        · rfl
      exact run_rep_one_of_not_mem ht hdigit
  · next hne =>
    rw [run_single_of_ne]
    · exact congrArg some hpass.symm
    · intro he
      obtain ⟨cs, hcs⟩ := List.head?_eq_some_iff.1 he
      exact hne cs hcs

theorem isSome_run_exponent (fuel : Nat) (t : Progress) : (run fuel Pattern.exponent t some).isSome := by
  rw [Pattern.exponent, run_optional, Option.isSome_or]
  exact Bool.or_true _

theorem recognises_wholeNumber : wholeNumber.Recognises wholeNumber? := by
  refine .of_bind (fun text => (text.dropWhile Char.isDigit).drop
    (Direct.exponent (text.dropWhile Char.isDigit)).length) (fun place => ?_) ?_
  · have hdigits := run_digits (s := ⟨place, []⟩) (Nat.le_refl _)
      (isSome_run_exponent place.after.length)
    rw [wholeNumber, matchAt?, run_cat, hdigits]
    unfold wholeNumber?
    cases run? Char.isDigit place.after with
    | none => rfl
    | some digits =>
      rw [Option.bind_some, run_exponent, Progress.after_pass, Progress.pass_pass]
      · rfl
      · exact (List.dropWhile_suffix _).length_le
  · intro cs text h
    obtain ⟨digits, hdigits, rfl⟩ := Option.map_eq_some_iff.1 h
    obtain ⟨hne, heq⟩ := eq_append_of_run? hdigits
    have hexponent := List.prefix_iff_eq_append.1 (isPrefix_exponent (cs.dropWhile Char.isDigit))
    refine ⟨List.append_ne_nil_of_left_ne_nil hne _, ?_⟩
    rw [List.append_assoc, hexponent, ← heq]

theorem settled_point (fuel : Nat) (ps : List Pattern) :
    Settled (.range '0' '9') fun t => run fuel (cats (set (.single '.') :: ps)) t some := by
  refine .inr fun t c rest ht hc => ?_
  have hpoint : t.cursor.after.head? ≠ some '.' := by
    rw [ht]
    rintro ⟨⟩
    cases hc
  exact (run_cats _ _).trans (run_single_of_ne hpoint)

theorem matchAt?_fraction (place : Cursor) :
    fraction.matchAt? place = (fraction? place.after).bind fun text => some ⟨place.pass text
      ((behindPoint place.after).drop (Direct.exponent (behindPoint place.after)).length), []⟩ := by
  have hdigits (s : Progress) (k : Continuation) (hk : Settled (.range '0' '9') k)
      (hs : s.cursor.after.length ≤ place.after.length) :
      run place.after.length (digits 0) s k =
        k (s.pass (s.cursor.after.takeWhile Char.isDigit)
          (s.cursor.after.dropWhile Char.isDigit)) := run_rep_zero hs hk
  rw [fraction, matchAt?, run_cats, hdigits _ _ (settled_point _ _) (Nat.le_refl _)]
  unfold fraction?
  split
  · next rest hrest =>
    have hlength : rest.length ≤ place.after.length := by
      have hsuffix := List.dropWhile_suffix Char.isDigit (l := place.after)
      rw [hrest] at hsuffix
      exact Nat.le_of_succ_le hsuffix.length_le
    have hpoint : ((⟨place, []⟩ : Progress).pass (place.after.takeWhile Char.isDigit)
        (place.after.dropWhile Char.isDigit)).cursor.after = '.' :: rest := hrest
    rw [run_cats, run_single_self hpoint, run_cats, run_digits]
    · rw [Progress.after_pass, Progress.pass_pass, behindPoint_eq hrest]
      cases run? Char.isDigit rest with
      | none => rfl
      | some digits =>
        rw [Option.bind_some, run_cats_last, run_exponent, Progress.after_pass, Progress.pass_pass,
          Progress.pass_pass]
        · simp
          rfl
        · exact (List.dropWhile_suffix _).length_le.trans hlength
    · exact hlength
    · exact isSome_run_exponent _
  · next hne =>
    rw [run_cats, run_single_of_ne]
    · rfl
    · intro hpoint
      obtain ⟨rest, hrest⟩ := List.head?_eq_some_iff.1 hpoint
      exact hne rest hrest

theorem recognises_fraction : fraction.Recognises fraction? :=
  .of_bind (fun text => (behindPoint text).drop (Direct.exponent (behindPoint text)).length)
    matchAt?_fraction fun _ _ => eq_append_of_fraction?

end Number

section Quoted

variable {q : Char}

theorem closing?_eq (hq : q ≠ '\\') {cs : List Char} {behindBackslash : Bool}
    (hhead : behindBackslash = true → cs.head? ≠ some q) :
    (closing? q cs).map (fun x => x.1 ++ [q]) =
      (throughBare? q behindBackslash cs).or (throughLast? q cs) := by
  induction cs using closing?.induct q generalizing behindBackslash with
  | case1 => rfl
  | case2 =>
    rw [closing?_self, throughBare?_self hhead]
    rfl
  | case3 c hc =>
    rw [throughBare?_other hc, throughLast?_other hc, closing?, if_neg hc]
    rfl
  | case4 d cs =>
    rw [closing?_self, throughBare?_self hhead]
    rfl
  | case5 c d cs hc hescaped ih =>
    obtain ⟨rfl, rfl⟩ := hescaped
    have hslash : (d == '\\') = false := by simpa using hq
    have hquote : throughBare? d true (d :: cs) = (throughBare? d false cs).map fun text => d :: text := by
      rw [throughBare?, hslash]
      exact if_neg fun h => absurd h.2 (by decide)
    have hcs := @ih false fun h => absurd h (by decide)
    rw [throughBare?_other hc, throughLast?_other hc, closing?_backslash hq, throughLast?_self,
      ← Option.map_or, beq_self_eq_true, hquote, ← Option.or_assoc, ← Option.map_or, ← hcs]
    cases closing? d cs with
    | none => rfl
    | some x => rfl
  | case6 c d cs hc hescaped ih =>
    have hd : (c == '\\') = true → (d :: cs).head? ≠ some q := by
      simpa using hescaped
    rw [throughBare?_other hc, throughLast?_other hc, closing?_other hc hescaped, ← Option.map_or,
      ← ih hd, Option.map_map, Option.map_map]
    rfl

theorem quoted?_self (hq : q ≠ '\\') (cs : List Char) :
    quoted? q (q :: cs) = (closing? q cs).map fun x => q :: (x.1 ++ [q]) := by
  have hcs : (closing? q cs).map (fun x => x.1 ++ [q]) =
      (throughBare? q false cs).or (throughLast? q cs) := closing?_eq hq nofun
  rw [quoted?, if_pos rfl, ← hcs, Option.map_map]
  rfl

theorem recognises_quoted (hq : q ≠ '\\') : (quoted q).Recognises (quoted? q) := by
  constructor
  · intro place h
    cases hafter : place.after with
    | nil => exact (run_cats _ _).trans (run_set_nil hafter)
    | cons c cs =>
      rw [hafter] at h
      by_cases hc : c = q
      · subst hc
        rw [quoted?_self hq, Option.map_eq_none_iff] at h
        rw [matchAt?_quoted hq hafter, h]
        rfl
      · exact (run_cats _ _).trans (run_single_of_ne (by simpa [hafter] using hc))
  · intro place text h
    cases hafter : place.after with
    | nil =>
      rw [hafter] at h
      cases h
    | cons c cs =>
      rw [hafter] at h
      by_cases hc : c = q
      · subst hc
        rw [quoted?_self hq] at h
        obtain ⟨x, hx, rfl⟩ := Option.map_eq_some_iff.1 h
        refine ⟨List.cons_ne_nil _ _, x.2, ?_, ?_⟩
        · rw [eq_append_of_closing? hx]
          simp
        · rw [matchAt?_quoted hq hafter, hx]
          rfl
      · rw [quoted?, if_neg hc] at h
        cases h

end Quoted

theorem recognises_catchAll : catchAll.Recognises unknown? := by
  refine .of_bind (fun text => text.tail.dropWhile fun c => !Text.isBlank c) (fun place => ?_) ?_
  · rw [catchAll, matchAt?, run_cat]
    cases hafter : place.after with
    | nil => exact run_set_nil hafter
    | cons c rest =>
      rw [run_set_cons hafter]
      by_cases hc : c = '\n'
      · subst hc
        rfl
      · rw [if_pos (by simpa using hc), run_rep_zero _ (settled_some _),
          Progress.pass_pass, unknown?, if_neg hc]
        · rfl
        · exact Nat.le_succ _
  · rintro (_ | ⟨c, cs⟩) text h
    · cases h
    · rw [unknown?] at h
      split at h
      · cases h
      · cases h
        exact ⟨List.cons_ne_nil _ _, by simp⟩

end Pattern

end Packrat
