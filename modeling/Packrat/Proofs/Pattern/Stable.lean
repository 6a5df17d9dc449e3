import Packrat.Pattern.Reader

/-! Reading does not look ahead. What a reader takes from a text that ends, it takes from any longer
text too, unless the end is free space: there a comment may be open, and it goes on. -/

namespace Packrat.Pattern

variable {α β : Type}

theorem dropWhile_append_of_ne_nil {p : α → Bool} {xs : List α} (h : xs.dropWhile p ≠ [])
    (ys : List α) : (xs ++ ys).dropWhile p = xs.dropWhile p ++ ys := by
  rw [List.dropWhile_append, if_neg (by simpa using h)]

theorem takeWhile_append_of_ne_nil {p : α → Bool} {xs : List α} (h : xs.dropWhile p ≠ [])
    (ys : List α) : (xs ++ ys).takeWhile p = xs.takeWhile p := by
  rw [List.takeWhile_append, if_neg]
  intro hlen
  have split := congrArg List.length (List.takeWhile_append_dropWhile (p := p) (l := xs))
  rw [List.length_append, hlen] at split
  exact h (List.length_eq_zero_iff.1 (by omega))

abbrev Reader (α : Type) : Type := List Char → Except Fault (α × List Char)

namespace Reader

/-- More text behind what is left does not change what is read. If nothing is left, a closing
parenthesis is left then, or it falls into an open comment. -/
structure Stable (read : Reader α) : Prop where
  suffix {cs rest : List Char} {x : α} : read cs = .ok (x, rest) → rest <:+ cs
  extend {cs rest : List Char} {x : α} : read cs = .ok (x, rest) → rest ≠ [] →
    ∀ more, read (cs ++ more) = .ok (x, rest ++ more)
  close {cs : List Char} {x : α} : read cs = .ok (x, []) →
    read (cs ++ [')']) = .ok (x, [')']) ∨ read (cs ++ [')']) = .ok (x, [])

namespace Stable

variable {read : Reader α}

theorem pure (x : α) : Stable fun cs => .ok (x, cs) where
  suffix h := by cases h; exact List.suffix_refl _
  extend h _ more := by cases h; rfl
  close h := by cases h; exact .inl rfl

theorem fail (e : Fault) : Stable fun _ => (.error e : Except Fault (α × List Char)) where
  suffix h := nomatch h
  extend h := nomatch h
  close h := nomatch h

theorem given {f : α → Reader β} (v : Except Fault α) (hf : ∀ a, Stable (f a)) :
    Stable fun cs => v >>= fun a => f a cs := by
  cases v with
  | ok a => exact hf a
  | error e => exact fail e

theorem bind {f : α → Reader β} (h : Stable read) (hf : ∀ a, Stable (f a)) :
    Stable fun cs => read cs >>= fun x => f x.1 x.2 := by
  have split {cs rest : List Char} {y : β} (hy : (read cs >>= fun x => f x.1 x.2) = .ok (y, rest)) :
      ∃ x middle, read cs = .ok (x, middle) ∧ f x middle = .ok (y, rest) := by
    cases hx : read cs with
    | ok x => exact ⟨x.1, x.2, rfl, by rw [hx] at hy; exact hy⟩
    | error e => rw [hx] at hy; cases hy
  have join {cs rest middle : List Char} {x : α} {y : β} (hx : read cs = .ok (x, middle))
      (hy : f x middle = .ok (y, rest)) : (read cs >>= fun x => f x.1 x.2) = .ok (y, rest) := by
    rw [hx]
    exact hy
  constructor
  case suffix =>
    intro cs rest y hy
    obtain ⟨x, middle, hx, hy⟩ := split hy
    exact ((hf x).suffix hy).trans (h.suffix hx)
  case extend =>
    intro cs rest y hy hne more
    obtain ⟨x, middle, hx, hy⟩ := split hy
    have hmiddle : middle ≠ [] := by
      rintro rfl
      exact hne (List.suffix_nil.1 ((hf x).suffix hy))
    exact join (h.extend hx hmiddle more) ((hf x).extend hy hne more)
  case close =>
    intro cs y hy
    obtain ⟨x, middle, hx, hy⟩ := split hy
    by_cases hmiddle : middle = []
    · subst hmiddle
      rcases h.close hx with hx | hx
      · exact ((hf x).close hy).imp (join hx) (join hx)
      · exact .inr (join hx hy)
    · exact ((hf x).close hy).imp (join (h.extend hx hmiddle _)) (join (h.extend hx hmiddle _))

theorem uncons {f : Char → Reader α} (e : Fault) (hf : ∀ c, Stable (f c)) :
    Stable fun cs => match cs with | [] => .error e | c :: rest => f c rest where
  suffix {cs _ _} h := by
    cases cs with
    | nil => cases h
    | cons c cs => exact ((hf c).suffix h).trans (List.suffix_cons c cs)
  extend {cs _ _} h hne more := by
    cases cs with
    | nil => cases h
    | cons c cs => exact (hf c).extend h hne more
  close {cs _} h := by
    cases cs with
    | nil => cases h
    | cons c cs => exact (hf c).close h

theorem branch {A : Char → Reader α} {B : Reader α} (q : Char → Bool) (e : Fault)
    (hA : ∀ c, Stable (A c)) (hB : Stable B) :
    Stable fun cs => match cs with
      | [] => .error e
      | c :: rest => if q c then A c rest else B (c :: rest) where
  suffix {cs _ _} h := by
    cases cs with
    | nil => cases h
    | cons c cs =>
      dsimp only at h
      split at h
      · exact ((hA c).suffix h).trans (List.suffix_cons c cs)
      · exact hB.suffix h
  extend {cs _ _} h hne more := by
    cases cs with
    | nil => cases h
    | cons c cs =>
      dsimp only [List.cons_append] at h ⊢
      split at h
      · next hc => rw [if_pos hc, (hA c).extend h hne more]
      · next hc =>
        rw [if_neg hc]
        exact hB.extend h hne more
  close {cs _} h := by
    cases cs with
    | nil => cases h
    | cons c cs =>
      dsimp only [List.cons_append] at h ⊢
      split at h
      · next hc =>
        rw [if_pos hc]
        exact (hA c).close h
      · next hc =>
        rw [if_neg hc]
        exact hB.close h

theorem option {A : Char → Reader α} {B : Reader α} {q : Char → Bool} (hq : q ')' = false)
    (hA : ∀ c, Stable (A c)) (hB : Stable B) :
    Stable fun cs => match cs with
      | [] => B []
      | c :: rest => if q c then A c rest else B (c :: rest) := by
  have some := branch q .setUnclosed hA hB
  constructor
  case suffix =>
    rintro (_ | ⟨c, cs⟩) rest x h
    · exact hB.suffix h
    · exact @suffix _ _ some (c :: cs) rest x h
  case extend =>
    rintro (_ | ⟨c, cs⟩) rest x h hne more
    · exact absurd (List.suffix_nil.1 (hB.suffix h)) hne
    · exact @extend _ _ some (c :: cs) rest x h hne more
  case close =>
    rintro (_ | ⟨c, cs⟩) x h
    · simp only [List.nil_append, hq, Bool.false_eq_true, if_false]
      exact hB.close h
    · exact @close _ _ some (c :: cs) x h

theorem congr {read' : Reader α} (h : Stable read') (heq : ∀ cs, read cs = read' cs) :
    Stable read := funext heq ▸ h

theorem of_local (h : ∀ cs x rest, read cs = .ok (x, rest) →
    ∃ (read' : Reader α) (tail : List Char), Stable read' ∧ tail <:+ cs ∧
      ∀ more, read (cs ++ more) = read' (tail ++ more)) : Stable read where
  suffix {cs rest x} hx := by
    obtain ⟨read', tail, hread, htail, heq⟩ := h cs x rest hx
    rw [← List.append_nil cs, heq, List.append_nil] at hx
    exact (hread.suffix hx).trans htail
  extend {cs rest x} hx hne more := by
    obtain ⟨read', tail, hread, -, heq⟩ := h cs x rest hx
    rw [← List.append_nil cs, heq, List.append_nil] at hx
    rw [heq]
    exact hread.extend hx hne more
  close {cs x} hx := by
    obtain ⟨read', tail, hread, -, heq⟩ := h cs x [] hx
    rw [← List.append_nil cs, heq, List.append_nil] at hx
    rw [heq]
    exact hread.close hx

theorem of_append (h : ∀ cs x rest, read cs = .ok (x, rest) →
    rest <:+ cs ∧ ∀ more, read (cs ++ more) = .ok (x, rest ++ more)) : Stable read where
  suffix hx := (h _ _ _ hx).1
  extend hx _ := (h _ _ _ hx).2
  close hx := .inl ((h _ _ _ hx).2 [')'])

theorem of_fuel {read : Nat → Reader α} (h : ∀ n, Stable (read n)) (k : Nat)
    (hfuel : ∀ cs n m x, cs.length + k ≤ n → n ≤ m → read n cs = .ok x → read m cs = .ok x) :
    Stable fun cs => read (cs.length + k) cs where
  suffix h' := (h _).suffix h'
  extend {cs _ _} h' hne more := by
    have hle : cs.length + k ≤ (cs ++ more).length + k := by
      rw [List.length_append]
      omega
    exact (h _).extend (hfuel cs _ _ _ (Nat.le_refl _) hle h') hne more
  close {cs _} h' := by
    have hle : cs.length + k ≤ (cs ++ [')']).length + k := by
      rw [List.length_append]
      omega
    exact (h _).close (hfuel cs _ _ _ (Nat.le_refl _) hle h')

theorem ite {c : Prop} [Decidable c] {read read' : Reader α} (h : c → Stable read)
    (h' : ¬c → Stable read') : Stable fun cs => if c then read cs else read' cs := by
  by_cases hc : c
  · simpa only [hc, if_true] using h hc
  · simpa only [hc, if_false] using h' hc

end Stable

end Reader

open Reader (Stable)

theorem skipSpace_suffix (b : Bool) (cs : List Char) : skipSpace b cs <:+ cs := by
  fun_induction skipSpace b cs with
  | case1 => exact List.suffix_refl _
  | case2 c rest ih | case3 c rest _ ih | case4 rest _ ih =>
    exact ih.trans (List.suffix_cons _ _)
  | case5 => exact List.suffix_refl _

theorem skipSpace_append {b : Bool} {cs : List Char} (h : skipSpace b cs ≠ []) (more : List Char) :
    skipSpace b (cs ++ more) = skipSpace b cs ++ more := by
  fun_induction skipSpace b cs with
  | case1 => exact absurd rfl h
  | case2 c rest ih => exact ih h
  | case3 c rest hc ih => rw [List.cons_append, skipSpace, if_pos hc, ih h]
  | case4 rest hc ih => rw [List.cons_append, skipSpace, if_neg hc, if_pos rfl, ih h]
  | case5 c rest hc hne => rw [List.cons_append, skipSpace, if_neg hc, if_neg hne]

theorem skipSpace_close {b : Bool} {cs : List Char} (h : skipSpace b cs = []) :
    skipSpace b (cs ++ [')']) = [')'] ∨ skipSpace b (cs ++ [')']) = [] := by
  fun_induction skipSpace b cs with
  | case1 b => cases b <;> decide
  | case2 c rest ih => exact ih h
  | case3 c rest hc ih =>
    rw [List.cons_append, skipSpace, if_pos hc]
    exact ih h
  | case4 rest hc ih =>
    rw [List.cons_append, skipSpace, if_neg hc, if_pos rfl]
    exact ih h
  | case5 => cases h

namespace Flags

variable (f : Flags)

theorem stable_skip : Stable fun cs => .ok ((), f.skip cs) where
  suffix {cs _ _} h := by
    cases h
    unfold skip
    split
    · exact skipSpace_suffix false cs
    · exact List.suffix_refl _
  extend {cs _ _} h hne more := by
    cases h
    unfold skip at hne ⊢
    split at hne
    · next hs => rw [if_pos hs, if_pos hs, skipSpace_append hne]
    · next hs => rw [if_neg hs, if_neg hs]
  close {cs _} h := by
    have h : f.skip cs = [] := congrArg Prod.snd (Except.ok.inj h)
    unfold skip at h ⊢
    split at h
    · next hs =>
      rw [if_pos hs]
      exact (skipSpace_close h).imp (by rintro h; rw [h]) (by rintro h; rw [h])
    · next hs =>
      rw [if_neg hs, h]
      exact .inl rfl

theorem skip_suffix (cs : List Char) : f.skip cs <:+ cs :=
  f.stable_skip.suffix rfl

theorem skip_append {cs : List Char} (h : f.skip cs ≠ []) (more : List Char) :
    f.skip (cs ++ more) = f.skip cs ++ more :=
  congrArg Prod.snd (Except.ok.inj (f.stable_skip.extend rfl h more))

theorem skip_close {cs : List Char} (h : f.skip cs = []) :
    f.skip (cs ++ [')']) = [')'] ∨ f.skip (cs ++ [')']) = [] := by
  have hread : (.ok ((), f.skip cs) : Except Fault (Unit × List Char)) = .ok ((), []) := by rw [h]
  have snd {left : List Char} (h : (.ok ((), f.skip (cs ++ [')'])) : Except Fault _) = .ok ((), left)) :
      f.skip (cs ++ [')']) = left := congrArg Prod.snd (Except.ok.inj h)
  exact (f.stable_skip.close hread).imp snd snd

end Flags

theorem Reader.Stable.skip {read : Reader α} (f : Flags) (h : Stable read) :
    Stable fun cs => read (f.skip cs) := f.stable_skip.bind fun _ => h

end Packrat.Pattern
