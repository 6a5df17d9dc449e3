import Packrat.Json.Number
import Packrat.Proofs.Json.Strings
import Mathlib.Data.List.Basic
import Mathlib.Data.List.TakeWhile

namespace Packrat.Json

def Blank (blanks : List Char) : Prop := ∀ c ∈ blanks, isSpace c = true

def Ends (rest : List Char) : Prop :=
  ∀ c, rest.head? = some c → c.isDigit = false ∧ c ≠ '.' ∧ c ≠ 'e' ∧ c ≠ 'E'

variable {blanks rest cs : List Char} {c : Char}

theorem skip_append (h : Blank blanks) (rest : List Char) : skip (blanks ++ rest) = skip rest :=
  List.dropWhile_append_of_pos h

theorem skip_cons (h : isSpace c = false) (rest : List Char) : skip (c :: rest) = c :: rest :=
  List.dropWhile_cons_of_neg (by simp [h])

theorem Ends.cons (h : c.isDigit = false ∧ c ≠ '.' ∧ c ≠ 'e' ∧ c ≠ 'E') : Ends (c :: rest) := by
  rintro _ ⟨⟩
  exact h

theorem ends_nil : Ends [] := nofun

theorem Ends.append (hrest : Ends rest) (h : Blank blanks) : Ends (blanks ++ rest) := by
  cases blanks with
  | nil => exact hrest
  | cons c blanks =>
    have hc : c = ' ' ∨ c = '\t' ∨ c = '\n' ∨ c = '\r' := by
      simpa [isSpace, or_assoc] using h c List.mem_cons_self
    refine .cons ?_
    rcases hc with rfl | rfl | rfl | rfl <;> decide

theorem isDigit_of_mem_toDigits {n : Nat} (h : c ∈ Nat.toDigits 10 n) : c.isDigit = true :=
  Nat.isDigit_of_mem_toDigits (by decide) (by decide) h

theorem head?_toDigits {n : Nat} (h : n ≠ 0) : (Nat.toDigits 10 n).head? ≠ some '0' := by
  induction n using Nat.strongRecOn with
  | _ n ih =>
    by_cases hn : n < 10
    · have hdigit : ∀ n < 10, n ≠ 0 → Nat.digitChar n ≠ '0' := by decide
      rw [Nat.toDigits_of_lt_base hn]
      simpa using hdigit n hn h
    · have hfront := ih (n / 10) (by omega) (by omega)
      rw [Nat.toDigits_of_base_le (by decide) (by omega),
        List.head?_append_of_ne_nil _ Nat.toDigits_ne_nil]
      exact hfront

theorem takeWhile_digits {digits : List Char} (h : ∀ c ∈ digits, c.isDigit = true)
    (hrest : Ends rest) : (digits ++ rest).takeWhile Char.isDigit = digits := by
  rw [List.takeWhile_append_of_pos h]
  cases rest with
  | nil => exact List.append_nil _
  | cons c rest => rw [List.takeWhile_cons_of_neg (by simp [hrest c rfl]), List.append_nil]

theorem dropWhile_digits {digits : List Char} (h : ∀ c ∈ digits, c.isDigit = true)
    (hrest : Ends rest) : (digits ++ rest).dropWhile Char.isDigit = rest := by
  rw [List.dropWhile_append_of_pos h]
  cases rest with
  | nil => rfl
  | cons c rest => rw [List.dropWhile_cons_of_neg (by simp [hrest c rfl])]

theorem readNumber?_digits {d : Char} {digits : List Char} (h : ∀ c ∈ d :: digits, c.isDigit = true)
    (hzero : d = '0' → digits = []) (hrest : Ends rest) :
    readNumber? (d :: digits ++ rest) = some (d :: digits, rest) := by
  have hminus : d ≠ '-' := by
    rintro rfl
    exact absurd (h '-' List.mem_cons_self) (by decide)
  have hwhole : ¬((d :: digits).isEmpty ||
      (d :: digits).head? == some '0' && decide (1 < (d :: digits).length)) = true := by
    by_cases hd : d = '0'
    · simp [hzero hd]
    · simp [hd]
  have htake := takeWhile_digits h hrest
  have hdrop := dropWhile_digits h hrest
  rw [List.cons_append] at htake hdrop ⊢
  unfold readNumber?
  split
  · next heq =>
    split at heq
    · next heq' => exact absurd (List.cons.inj heq').1 hminus
    · cases heq
      rw [htake, hdrop]
      dsimp only
      rw [if_neg hwhole]
      rcases rest with _ | ⟨c, more⟩
      · simp
      · obtain ⟨-, hpoint, he, hE⟩ := hrest c rfl
        split
        · next heq => exact absurd (List.cons.inj heq).1 hpoint
        · cases more <;> simp [he, hE]

theorem readNumber?_toDigits (n : Nat) (hrest : Ends rest) :
    readNumber? (Nat.toDigits 10 n ++ rest) = some (Nat.toDigits 10 n, rest) := by
  have hdigits : ∀ c ∈ Nat.toDigits 10 n, c.isDigit = true := fun c => isDigit_of_mem_toDigits
  by_cases hn : n = 0
  · subst hn
    exact readNumber?_digits hdigits (fun _ => rfl) hrest
  · have hhead := head?_toDigits hn
    cases h : Nat.toDigits 10 n with
    | nil => exact absurd h Nat.toDigits_ne_nil
    | cons d digits =>
      rw [h] at hdigits hhead
      exact readNumber?_digits hdigits (fun hd => absurd (congrArg some hd) hhead) hrest

theorem ofText_toDigits (n : Nat) :
    NumberParts.ofText (Nat.toDigits 10 n) = ⟨false, Nat.toDigits 10 n, [], none⟩ := by
  have hdigits : ∀ c ∈ Nat.toDigits 10 n, c.isDigit = true := fun c => isDigit_of_mem_toDigits
  have htake := takeWhile_digits hdigits ends_nil
  have hdrop := dropWhile_digits hdigits ends_nil
  rw [List.append_nil] at htake hdrop
  unfold NumberParts.ofText
  split
  · next heq =>
    split at heq
    · next rest hminus =>
      rw [hminus] at hdigits
      exact absurd (hdigits '-' List.mem_cons_self) (by decide)
    · cases heq
      rw [htake, hdrop]

theorem natural?_ofNat {n : Nat} (h : n < UInt64.size) : (ofNat n).natural? = some n := by
  have hn : Decimal.natural (Nat.toDigits 10 n) = n := by
    have := Nat.ofDigitChars_ten_toDigits (n := n)
    rw [Nat.ofDigitChars_eq_foldl] at this
    exact this
  rw [ofNat, natural?, ofText_toDigits, NumberParts.natural?]
  simp [NumberParts.isWhole, hn, h]

structure Style.Spaced (style : Style) : Prop where
  lead (depth : Nat) : Blank (style.lead depth)
  colon : ∃ blanks, style.colon = ':' :: blanks ∧ Blank blanks

theorem spaced_compact : compact.Spaced where
  lead _ := nofun
  colon := ⟨[], rfl, nofun⟩

theorem spaced_pretty : pretty.Spaced where
  lead depth := by
    refine List.forall_mem_cons.2 ⟨rfl, fun c hc => ?_⟩
    rw [List.eq_of_mem_replicate hc]
    rfl
  colon := ⟨[' '], rfl, List.forall_mem_singleton.2 rfl⟩

/-- A value with no numbers but whole ones without a sign, in which no text is missing. -/
inductive Plain : Json → Prop
  | null : Plain .null
  | bool (b : Bool) : Plain (.bool b)
  | number (n : Nat) : Plain (ofNat n)
  | text (s : String) : Plain (text s)
  | array {vs : List Json} (h : ∀ v ∈ vs, Plain v) : Plain (.array vs)
  | record {fields : List (String × Json)} (h : ∀ field ∈ fields, Plain field.2) :
      Plain (record fields)

variable {style : Style} {v : Json} {fuel depth : Nat}

def Reads (style : Style) (v : Json) : Prop := ∀ (fuel depth : Nat) (rest : List Char), Ends rest →
  2 * (v.write style depth).length ≤ fuel →
    readValue? (fuel + 1) (v.write style depth ++ rest) = some (v, rest)

theorem readValue?_append (h : Blank blanks) (fuel : Nat) (cs : List Char) :
    readValue? fuel (blanks ++ cs) = readValue? fuel cs := by
  cases fuel with
  | zero => rfl
  | succ fuel => rw [readValue?, readValue?, skip_append h]

theorem readItems?_append (h : Blank blanks) (fuel : Nat) (cs : List Char) :
    readItems? fuel (blanks ++ cs) = readItems? fuel cs := by
  cases fuel with
  | zero => rfl
  | succ fuel => rw [readItems?, readItems?, readValue?_append h]

theorem readFields?_append (h : Blank blanks) (fuel : Nat) (cs : List Char) :
    readFields? fuel (blanks ++ cs) = readFields? fuel cs := by
  cases fuel with
  | zero => rfl
  | succ fuel => rw [readFields?, readFields?, skip_append h]

theorem reads_null : Reads style null := by
  intro fuel depth rest _ _
  rw [write]
  rfl

theorem reads_bool (b : Bool) : Reads style (bool b) := by
  intro fuel depth rest _ _
  cases b with
  | false =>
    rw [write]
    rfl
  | true =>
    rw [write]
    rfl

theorem reads_text (s : String) : Reads style (text s) := by
  intro fuel depth rest _ _
  rw [text, write, Option.getD_some, writeText_append, readValue?, skip_cons rfl]
  change (readString? _).map _ = _
  rw [readString?_escaped]
  rfl

theorem reads_ofNat (n : Nat) : Reads style (ofNat n) := by
  intro fuel depth rest hrest _
  have hread := readNumber?_toDigits n hrest
  have hdigits : ∀ c ∈ Nat.toDigits 10 n, c.isDigit = true := fun c => isDigit_of_mem_toDigits
  rw [ofNat, write]
  obtain ⟨d, digits, h⟩ := List.exists_cons_of_ne_nil (Nat.toDigits_ne_nil (b := 10) (n := n))
  rw [h] at hread hdigits ⊢
  have hd : d.isDigit = true := hdigits d List.mem_cons_self
  have hne (c : Char) (hc : c.isDigit = false) : d ≠ c := fun heq => by
    rw [heq, hc] at hd
    cases hd
  have hspace : isSpace d = false := by
    simp [isSpace, hne]
  rw [List.cons_append] at hread
  rw [readValue?, List.cons_append, skip_cons hspace]
  split
  case h_7 =>
    rw [hread]
    rfl
  all_goals
    next heq => exact absurd (List.cons.inj heq).1 (hne _ rfl)

theorem readItems?_write (hstyle : style.Spaced) {vs : List Json}
    (h : ∀ u ∈ v :: vs, Reads style u) {close : List Char} (hclose : Blank close)
    (hfuel : 2 * (v.write style depth ++ writeItems style depth vs).length ≤ fuel) :
    readItems? (fuel + 2)
        (v.write style depth ++ (writeItems style depth vs ++ (close ++ ']' :: rest))) =
      some (v :: vs, rest) := by
  induction vs generalizing v fuel with
  | nil =>
    have hends : Ends (close ++ ']' :: rest) := (Ends.cons (by decide)).append hclose
    have hv := h v List.mem_cons_self fuel depth _ hends
      (by rw [writeItems, List.append_nil] at hfuel; omega)
    rw [readItems?, writeItems, List.nil_append, hv]
    simp only [Option.bind_eq_bind, Option.bind_some, skip_append hclose]
    rfl
  | cons u us ih =>
    obtain ⟨hv, hus⟩ := List.forall_mem_cons.1 h
    rw [writeItems] at hfuel ⊢
    simp only [List.cons_append, List.append_assoc, List.length_append, List.length_cons] at hfuel ⊢
    obtain ⟨fuel, rfl⟩ : ∃ n, fuel = n + 1 := ⟨fuel - 1, by omega⟩
    rw [readItems?, hv (fuel + 1) depth _ (.cons (by decide)) (by omega)]
    simp only [Option.bind_eq_bind, Option.bind_some, skip_cons (c := ',') rfl]
    rw [readItems?_append (hstyle.lead depth),
      ih hus (by rw [List.length_append]; omega)]
    rfl

section

variable (k : String) (hblanks : Blank blanks) (hcs : readValue? fuel cs = some (v, rest))
  {more : List Char}

include hblanks hcs

theorem readFields?_last (hrest : skip rest = '\x7d' :: more) :
    readFields? (fuel + 1) (writeText k ++ ':' :: (blanks ++ cs)) = some ([(some k, v)], more) := by
  rw [readFields?, writeText_append]
  simp only [skip_cons (c := '"') rfl, readString?_escaped, Option.bind_eq_bind, Option.bind_some,
    skip_cons (c := ':') rfl, readValue?_append hblanks, hcs, hrest]

theorem readFields?_more (hrest : skip rest = ',' :: more) :
    readFields? (fuel + 1) (writeText k ++ ':' :: (blanks ++ cs)) =
      (readFields? fuel more).map fun x => ((some k, v) :: x.1, x.2) := by
  rw [readFields?, writeText_append]
  simp only [skip_cons (c := '"') rfl, readString?_escaped, Option.bind_eq_bind, Option.bind_some,
    skip_cons (c := ':') rfl, readValue?_append hblanks, hcs, hrest]
  cases readFields? fuel more <;> rfl

end

def keyed (fields : List (String × Json)) : List (Option String × Json) :=
  fields.map fun (k, v) => (some k, v)

theorem readFields?_write (hstyle : style.Spaced) (k : String) {fields : List (String × Json)}
    (hv : Reads style v) (hfields : ∀ field ∈ fields, Reads style field.2) {close : List Char}
    (hclose : Blank close) (rest : List Char)
    (hfuel : 2 * (v.write style depth ++ writeFields style depth (keyed fields)).length ≤ fuel) :
    readFields? (fuel + 2) (writeText k ++ (style.colon ++ (v.write style depth ++
        (writeFields style depth (keyed fields) ++ (close ++ '\x7d' :: rest))))) =
      some ((some k, v) :: keyed fields, rest) := by
  obtain ⟨blanks, hcolon, hblanks⟩ := hstyle.colon
  rw [hcolon, List.cons_append]
  induction fields generalizing k v fuel with
  | nil =>
    have hends : Ends (close ++ '\x7d' :: rest) := (Ends.cons (by decide)).append hclose
    rw [keyed, List.map_nil, writeFields, List.append_nil] at hfuel
    rw [keyed, List.map_nil, writeFields, List.nil_append,
      readFields?_last k hblanks (hv fuel depth _ hends (by omega)) (skip_append hclose _)]
  | cons field fields ih =>
    obtain ⟨key, u⟩ := field
    obtain ⟨(hu : Reads style u), hmore⟩ := List.forall_mem_cons.1 hfields
    have hkeyed : keyed ((key, u) :: fields) = (some key, u) :: keyed fields := rfl
    rw [hkeyed, writeFields] at hfuel ⊢
    simp only [List.cons_append, List.append_assoc, List.length_append, List.length_cons,
      Option.getD_some] at hfuel ⊢
    obtain ⟨fuel, rfl⟩ : ∃ n, fuel = n + 1 := ⟨fuel - 1, by omega⟩
    rw [readFields?_more k hblanks (hv (fuel + 1) depth _ (.cons (by decide)) (by omega))
        (skip_cons rfl _),
      readFields?_append (hstyle.lead depth), hcolon, List.cons_append,
      ih key hu hmore (by rw [List.length_append]; omega)]
    rfl

theorem readValue?_bracket (h : skip cs = ']' :: rest) (fuel : Nat) :
    readValue? fuel cs = none := by
  cases fuel with
  | zero => rfl
  | succ fuel =>
    rw [readValue?, h]
    rfl

theorem readItems?_skip (fuel : Nat) (cs : List Char) :
    readItems? fuel (skip cs) = readItems? fuel cs := by
  have hblank : Blank (cs.takeWhile isSpace) := fun c hc => List.mem_takeWhile_imp hc
  rw [← readItems?_append hblank, skip, List.takeWhile_append_dropWhile]

theorem readValue?_array {vs : List Json} (h : readItems? fuel cs = some (vs, rest)) :
    readValue? (fuel + 1) ('[' :: cs) = some (array vs, rest) := by
  -- No value begins with the closing bracket, so what has items is read as such.
  rw [readValue?]
  simp only [skip_cons (c := '[') rfl]
  split
  · next hskip =>
    cases fuel with
    | zero => cases h
    | succ fuel =>
      rw [readItems?, readValue?_bracket hskip] at h
      cases h
  · rw [readItems?_skip, h]
    rfl

theorem reads_array (hstyle : style.Spaced) {vs : List Json} (h : ∀ u ∈ vs, Reads style u) :
    Reads style (array vs) := by
  intro fuel depth rest _ hfuel
  cases vs with
  | nil =>
    rw [write]
    rfl
  | cons v vs =>
    rw [write] at hfuel ⊢
    simp only [List.cons_append, List.append_assoc, List.length_append, List.length_cons,
      List.nil_append] at hfuel ⊢
    obtain ⟨fuel, rfl⟩ : ∃ n, fuel = n + 2 := ⟨fuel - 2, by omega⟩
    apply readValue?_array
    rw [readItems?_append (hstyle.lead (depth + 1)), readItems?_write hstyle h (hstyle.lead depth)]
    rw [List.length_append]
    omega

theorem reads_record (hstyle : style.Spaced) {fields : List (String × Json)}
    (h : ∀ field ∈ fields, Reads style field.2) : Reads style (record fields) := by
  intro fuel depth rest _ hfuel
  cases fields with
  | nil =>
    rw [record, List.map_nil, write]
    rfl
  | cons field fields =>
    obtain ⟨k, v⟩ := field
    obtain ⟨(hv : Reads style v), hfields⟩ := List.forall_mem_cons.1 h
    have hrecord : record ((k, v) :: fields) = object ((some k, v) :: keyed fields) := rfl
    rw [hrecord, write, Option.getD_some] at hfuel ⊢
    simp only [List.cons_append, List.append_assoc, List.length_append, List.length_cons,
      List.nil_append] at hfuel ⊢
    obtain ⟨fuel, rfl⟩ : ∃ n, fuel = n + 2 := ⟨fuel - 2, by omega⟩
    have hlength : 2 * (v.write style (depth + 1) ++
        writeFields style (depth + 1) (keyed fields)).length ≤ fuel := by
      rw [List.length_append]
      omega
    have hread := readFields?_write hstyle k hv hfields (hstyle.lead depth) rest hlength
    rw [readValue?]
    simp only [skip_cons (c := '\x7b') rfl, skip_append (hstyle.lead (depth + 1)), writeText_append,
      skip_cons (c := '"') rfl] at hread ⊢
    change (readFields? (fuel + 2) _).map _ = _
    rw [hread]
    rfl

theorem Plain.reads (hstyle : style.Spaced) (h : v.Plain) : Reads style v := by
  induction h with
  | null => exact reads_null
  | bool b => exact reads_bool b
  | number n => exact reads_ofNat n
  | text s => exact reads_text s
  | array _ ih => exact reads_array hstyle ih
  | record _ ih => exact reads_record hstyle ih

theorem read?_write (hstyle : style.Spaced) (h : v.Plain) : read? (v.write style 0) = some v := by
  have hread := h.reads hstyle (2 * (v.write style 0).length + 1) 0 [] ends_nil (by omega)
  rw [List.append_nil] at hread
  rw [read?, hread]
  rfl

end Packrat.Json
