import Packrat.Json.Decode
import Packrat.Json.Encode
import Packrat.Proofs.Json.Reading
import Mathlib.Data.List.Nodup

namespace Packrat

namespace Json

theorem keys?_keyed (fields : List (String × Json)) :
    keys? (keyed fields) = some (fields.map (·.1)) := by
  induction fields with
  | nil => rfl
  | cons field fields ih =>
    rw [keys?] at ih ⊢
    rw [keyed, List.map_cons, List.mapM_cons]
    rw [keyed] at ih
    rw [ih]
    rfl

theorem find?_keyed {fields : List (String × Json)} (hnodup : (fields.map (·.1)).Nodup)
    {field : String × Json} (hfield : field ∈ fields) :
    (keyed fields).find? (·.1 == some field.1) = some (some field.1, field.2) := by
  induction fields with
  | nil => cases hfield
  | cons first fields ih =>
    rw [List.map_cons, List.nodup_cons] at hnodup
    rcases List.mem_cons.1 hfield with rfl | hmem
    · exact List.find?_cons_of_pos (by simp)
    · have hne : first.1 ≠ field.1 := fun heq =>
        hnodup.1 (heq ▸ List.mem_map_of_mem (f := fun field => field.1) hmem)
      exact (List.find?_cons_of_neg (by simpa using hne)).trans (ih hnodup.2 hmem)

theorem fields?_keyed {fields : List (String × Json)} {names : List String}
    (hnames : fields.map (·.1) = names) (hnodup : names.Nodup) :
    fields? names (keyed fields) = some (fields.map fun field => some field.2) := by
  subst hnames
  have hcount : ((fields.map (·.1)).any fun name =>
      decide (1 < (fields.map (·.1)).count name)) = false := by
    rw [List.any_eq_false]
    intro name _
    simpa using List.nodup_iff_count_le_one.1 hnodup name
  rw [fields?, keys?_keyed]
  simp only [Option.bind_eq_bind, Option.bind_some, hcount, Bool.false_eq_true, if_false,
    List.map_map]
  refine congrArg some (List.map_congr_left fun field hfield => ?_)
  rw [Function.comp_apply, find?_keyed hnodup hfield]
  rfl

end Json

open Json

structure Marker.Fits (m : Marker) : Prop where
  focus : m.focus < UInt64.size
  start : m.start < UInt64.size
  stop : m.stop < UInt64.size
  line : m.line < UInt64.size

theorem Marker.plain_toJson (m : Marker) : m.toJson.Plain := by
  refine .record ?_
  simp only [List.forall_mem_cons, List.not_mem_nil, false_imp_iff, implies_true, and_true]
  exact ⟨.text _, .number _, .number _, .number _, .number _⟩

theorem Marker.ofJson?_record (fields : List (String × Json)) :
    ofJson? (.record fields) =
      (fields? ["source_name", "main_index", "start_index", "end_index", "line_number"]
        (keyed fields)).bind ofFields? := rfl

theorem Marker.ofJson?_toJson {m : Marker} (h : m.Fits) : ofJson? m.toJson = some m := by
  rw [toJson, ofJson?_record, fields?_keyed]
  · simp only [List.map_cons, List.map_nil, Option.bind_some, ofFields?, natural?_ofNat h.focus,
      natural?_ofNat h.start, natural?_ofNat h.stop, natural?_ofNat h.line]
    rfl
  · rfl
  · decide

theorem Kind.plain_toJson (k : Kind) : k.toJson.Plain := by
  cases k with
  | literal s => exact .record (List.forall_mem_singleton.2 (.text s))
  | _ => exact .text _

theorem Kind.ofJson?_toJson (k : Kind) : ofJson? k.toJson = some k := by
  cases k <;> rfl

namespace Token

variable {t : Token}

def payloadJson : Option Payload → Json
  | none => .null
  | some p => p.toJson

theorem payload_cases (h : ∀ x, t.payload ≠ some (.number x)) :
    (payloadJson t.payload).Plain ∧ Payload.ofJson? (payloadJson t.payload) = some t.payload := by
  cases hpayload : t.payload with
  | none => exact ⟨.null, rfl⟩
  | some p =>
    cases p with
    | text s => exact ⟨.text s, rfl⟩
    | number x => exact absurd hpayload (h x)

theorem toJson_eq (t : Token) : t.toJson = .record [("marker", t.marker.toJson),
    ("kind", t.kind.toJson), ("value", payloadJson t.payload)] := by
  rw [toJson]
  cases t.payload <;> rfl

theorem plain_toJson (h : ∀ x, t.payload ≠ some (.number x)) : t.toJson.Plain := by
  rw [toJson_eq]
  refine .record ?_
  simp only [List.forall_mem_cons, List.not_mem_nil, false_imp_iff, implies_true, and_true]
  exact ⟨t.marker.plain_toJson, t.kind.plain_toJson, (payload_cases h).1⟩

theorem ofJson?_record (fields : List (String × Json)) : ofJson? (.record fields) =
    (fields? ["marker", "kind", "value"] (keyed fields)).bind fun
      | [some marker, some kind, value] => ofFields? marker kind (value.getD .null)
      | _ => none := rfl

theorem ofJson?_toJson (h : ∀ x, t.payload ≠ some (.number x)) (hmarker : t.marker.Fits) :
    ofJson? t.toJson = some t := by
  rw [toJson_eq, ofJson?_record, fields?_keyed]
  · simp only [List.map_cons, List.map_nil, Option.bind_some, Option.getD_some, ofFields?,
      Marker.ofJson?_toJson hmarker, Kind.ofJson?_toJson, (payload_cases h).2]
    rfl
  · rfl
  · decide

/-- A token with a text or without a payload is read back from its JSON text, on one line or on
many. -/
theorem read?_render (hpayload : ∀ x, t.payload ≠ some (.number x)) (hmarker : t.marker.Fits) :
    read? t.toJson.render = some t ∧ read? t.toJson.renderPretty = some t := by
  have hplain := plain_toJson hpayload
  constructor
  · rw [read?, render, String.toList_ofList, read?_write spaced_compact hplain, Option.bind_some,
      ofJson?_toJson hpayload hmarker]
  · rw [read?, renderPretty, String.toList_ofList, read?_write spaced_pretty hplain,
      Option.bind_some, ofJson?_toJson hpayload hmarker]

def quoted : Token where
  marker := ⟨"a\\b", UInt64.size - 1, 0, 10, 1⟩
  kind := .literal "Name"
  payload := some (.text "\"\\\n\x01\x7fé∀😀")

theorem read?_render_quoted :
    read? quoted.toJson.render = some quoted ∧ read? quoted.toJson.renderPretty = some quoted :=
  read?_render (fun _ heq => nomatch heq) ⟨by decide, by decide, by decide, by decide⟩

end Token

namespace Json

theorem texts?_array (ss : List String) : texts? (.array (ss.map text)) = some ss := by
  rw [texts?, List.mapM_map]
  induction ss with
  | nil => rfl
  | cons s ss ih =>
    rw [List.mapM_cons, ih]
    rfl

theorem plain_texts (ss : List String) : Plain (.array (ss.map text)) :=
  .array (List.forall_mem_map.2 fun s _ => .text s)

end Json

theorem Newlines.ofJson?_text (n : Newlines) : ofJson? (.text n.text) = some n :=
  ofText?_text n

namespace Config

theorem plain_toJson (c : Config) : c.toJson.Plain := by
  refine .record ?_
  simp only [List.forall_mem_cons, List.not_mem_nil, false_imp_iff, implies_true, and_true]
  exact ⟨plain_texts c.keywords, plain_texts c.symbols, .text c.newlines.text⟩

theorem ofJson?_record (fields : List (String × Json)) : ofJson? (.record fields) =
    (fields? ["keywords", "symbols", "newline_behavior"] (keyed fields)).bind ofFields? := rfl

theorem ofFields?_present (keywords symbols newlines : Json) :
    ofFields? [some keywords, some symbols, some newlines] =
      (texts? keywords).bind fun keywords => (texts? symbols).bind fun symbols =>
        (Newlines.ofJson? newlines).bind fun newlines =>
          some { keywords := keywords, symbols := symbols, newlines := newlines } := rfl

theorem ofJson?_toJson (c : Config) : ofJson? c.toJson = some { c with custom := [] } := by
  rw [toJson, ofJson?_record, fields?_keyed]
  · simp only [List.map_cons, List.map_nil, Option.bind_some, ofFields?_present, texts?_array,
      Newlines.ofJson?_text]
  · rfl
  · decide

theorem readJson_write {style : Style} (hstyle : style.Spaced) (c : Config) :
    readJson (String.ofList (c.toJson.write style 0)) = .ok { c with custom := [] } := by
  rw [readJson, String.toList_ofList, read?_write hstyle (plain_toJson c), Option.bind_some,
    ofJson?_toJson]
  rfl

/-- A configuration is read back from its JSON text, on one line or on many, all but the specs of
its own, which have no written form. -/
theorem readJson_render (c : Config) :
    readJson c.toJson.render = .ok { c with custom := [] } ∧
      readJson c.toJson.renderPretty = .ok { c with custom := [] } :=
  ⟨readJson_write spaced_compact c, readJson_write spaced_pretty c⟩

end Config

end Packrat
