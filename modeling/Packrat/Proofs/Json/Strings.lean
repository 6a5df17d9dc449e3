import Packrat.Json.Reader

namespace Packrat.Json

structure Spells (c : Char) (piece : Piece) : Prop where
  read (rest : List Char) : readPieces? (escaped c ++ rest) =
    (readPieces? rest).map fun x => (piece :: x.1, x.2)
  decode (pieces : List Piece) : decode? (piece :: pieces) = (decode? pieces).map (c :: ·)

variable {c e : Char}

theorem spells_named (hescaped : escaped c = ['\\', e]) (he : e ≠ 'u') (h : unescaped? e = some c) :
    Spells c (.char c) where
  read rest := by
    rw [hescaped, List.cons_append, List.singleton_append, readPieces?]
    · rw [h]
      cases readPieces? rest <;> rfl
    · exact fun _ _ _ _ _ hu _ => he hu
  decode _ := rfl

theorem hexNatural?_hexByte : ∀ n < 0x20,
    Decimal.hexNatural? ['0', '0', Nat.digitChar (n / 16), Nat.digitChar (n % 16)] = some n := by
  decide

theorem spells_unit (hescaped : escaped c = ['\\', 'u', '0', '0'] ++ hexByte c.toNat)
    (h : c.toNat < 0x20) : Spells c (.unit c.toNat) where
  read rest := by
    rw [hescaped, hexByte]
    simp only [List.cons_append, List.nil_append]
    rw [readPieces?, hexNatural?_hexByte c.toNat h]
    cases readPieces? rest <;> rfl
  decode pieces := by
    have hlow : (decide (c.toNat < 0xD800) || decide (0xDFFF < c.toNat)) = true := by
      simp only [Bool.or_eq_true, decide_eq_true_eq]
      omega
    rw [decode?.eq_def]
    dsimp only
    rw [if_pos hlow, Char.ofNat_toNat]

theorem spells_self (hescaped : escaped c = [c]) (hquote : c ≠ '"') (hslash : c ≠ '\\')
    (h : ¬c.toNat < 0x20) : Spells c (.char c) where
  read rest := by
    rw [hescaped, List.singleton_append, readPieces?]
    · have hplain : ¬(decide (c.toNat < 0x20) || decide (c = '\\')) = true := by simp [h, hslash]
      rw [if_neg hplain]
      cases readPieces? rest <;> rfl
    · exact hquote
    · exact fun _ _ _ _ _ hc _ => hslash hc
    · exact fun _ _ hc _ => hslash hc
  decode _ := rfl

theorem exists_spells (c : Char) : ∃ piece, Spells c piece := by
  by_cases hnamed : c ∈ ['"', '\\', '\x08', '\x0C', '\n', '\r', '\t']
  · simp only [List.mem_cons, List.not_mem_nil, or_false] at hnamed
    rcases hnamed with rfl | rfl | rfl | rfl | rfl | rfl | rfl
    all_goals exact ⟨_, spells_named rfl (by decide) rfl⟩
  · simp only [List.mem_cons, List.not_mem_nil, or_false, not_or] at hnamed
    have hescaped : escaped c =
        if c.toNat < 0x20 then ['\\', 'u', '0', '0'] ++ hexByte c.toNat else [c] := by
      simp [escaped, hnamed]
    by_cases h : c.toNat < 0x20
    · exact ⟨_, spells_unit (hescaped.trans (if_pos h)) h⟩
    · exact ⟨_, spells_self (hescaped.trans (if_neg h)) hnamed.1 hnamed.2.1 h⟩

theorem exists_readPieces?_escaped (cs rest : List Char) : ∃ pieces,
    readPieces? (cs.flatMap escaped ++ '"' :: rest) = some (pieces, rest) ∧
      decode? pieces = some cs := by
  induction cs with
  | nil => exact ⟨[], rfl, rfl⟩
  | cons c cs ih =>
    obtain ⟨pieces, hread, hdecode⟩ := ih
    obtain ⟨piece, hc⟩ := exists_spells c
    refine ⟨piece :: pieces, ?_, ?_⟩
    · rw [List.flatMap_cons, List.append_assoc, hc.read, hread]
      rfl
    · rw [hc.decode, hdecode]
      rfl

theorem writeText_append (s : String) (rest : List Char) :
    writeText s ++ rest = '"' :: (s.toList.flatMap escaped ++ '"' :: rest) := by
  simp [writeText]

theorem readString?_escaped (s : String) (rest : List Char) :
    readString? (s.toList.flatMap escaped ++ '"' :: rest) = some (some s, rest) := by
  obtain ⟨pieces, hread, hdecode⟩ := exists_readPieces?_escaped s.toList rest
  rw [readString?, hread, Option.map_some]
  dsimp only
  rw [hdecode, Option.map_some, String.ofList_toList]

end Packrat.Json
