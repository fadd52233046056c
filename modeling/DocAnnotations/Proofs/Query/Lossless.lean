import DocAnnotations.Proofs.Annotations.Aggregation
import DocAnnotations.Proofs.Coercion.Idempotent
import DocAnnotations.Proofs.Command.Agreement

/-! # Reading what was printed of a comment -/

namespace DocAnnotations

/-! ## The annotations as one value -/

namespace Annotations

/-- No value holds a float, and each can stand in a list in a map without nesting too deep. -/
def Readable (a : Annotations) : Prop :=
  ∀ e ∈ a.toList, ∀ v ∈ e.2, v.FloatFree ∧ v.depth ≤ 125

variable {comment : String}

theorem toList_parse (comment : String) :
    (parse comment).toList =
      (parse comment).names.map fun name => (name, (parse comment).all name) := by
  have hentry : ∀ e ∈ (parse comment).toList, (e.1, (parse comment).all e.1) = e := by
    intro e he
    rw [← (mem_toList_parse comment e he).2]
  rw [names_eq, List.map_map]
  exact (List.map_congr_left hentry).trans (List.map_id _) |>.symm

theorem keysDistinct_of_mem_toList {e : String × List Value} (he : e ∈ (parse comment).toList)
    {v : Value} (hv : v ∈ e.2) : v.KeysDistinct := by
  rw [(mem_toList_parse comment e he).2, all_parse] at hv
  obtain ⟨line, -, rfl⟩ := List.mem_map.mp hv
  exact (Coercion.fits_coerce line.text).keysDistinct

theorem readable_parse (h : ∀ line ∈ Comment.scan comment,
    (Coercion.coerce line.text).FloatFree ∧ (Coercion.coerce line.text).depth ≤ 125) :
    Readable (parse comment) := by
  intro e he v hv
  rw [(mem_toList_parse comment e he).2, all_parse] at hv
  obtain ⟨line, hline, rfl⟩ := List.mem_map.mp hv
  exact h line (List.mem_of_mem_filter hline)

theorem fits_toValue (h : Readable (parse comment)) : (parse comment).toValue.Fits 127 := by
  apply Value.fits_map
  · have hnodup : (parse comment).names.Nodup := by
      rw [names_parse]
      exact nodup_eraseDups _
    rw [names_eq] at hnodup
    rwa [List.map_map]
  · intro e he
    obtain ⟨group, hgroup, rfl⟩ := List.mem_map.mp he
    exact Value.fits_list fun v hv =>
      ⟨(h group hgroup v hv).2, keysDistinct_of_mem_toList hgroup hv⟩

theorem floatFree_toValue {a : Annotations} (h : a.Readable) : a.toValue.FloatFree := by
  apply Value.floatFree_map
  intro e he
  obtain ⟨group, hgroup, rfl⟩ := List.mem_map.mp he
  exact Value.floatFree_list fun v hv => (h group hgroup v hv).1

end Annotations

/-! ## The printed text -/

namespace Query

variable {δ : Type} [DecidableEq δ]

open Annotations (parse Readable)

theorem read_annotationsOf {comment : String} (h : Readable (parse comment)) :
    Json.read (annotationsOf comment) = some (parse comment).toValue := by
  obtain ⟨hdepth, hkeys⟩ := Annotations.fits_toValue h
  rw [Json.read, annotationsOf, Json.write, String.toList_ofList]
  exact Json.readChars_writeValue _ (Annotations.floatFree_toValue h) hkeys hdepth

theorem toList_eq_of_annotationsOf_eq {a b : String} (ha : Readable (parse a))
    (hb : Readable (parse b)) (heq : annotationsOf a = annotationsOf b) :
    (parse a).toList = (parse b).toList := by
  have hvalue := read_annotationsOf ha
  rw [heq, read_annotationsOf hb, Option.some.injEq, Annotations.toValue, Annotations.toValue,
    Value.map.injEq] at hvalue
  have hinj : Function.Injective fun e : String × List Value => (e.1, Value.list e.2) := by
    rintro ⟨m, vs⟩ ⟨n, ws⟩ hpair
    simpa using hpair
  exact (List.map_injective_iff.mpr hinj hvalue).symm

/-- What is printed of a comment is read as the map from each of its names, in order, to the list
of the values under it, and comments that differ in these are printed differently. -/
theorem annotationsOf_lossless (fingerprint : String → δ) (disk : Disk Id) (comment : String)
    (h : Readable (parse comment)) :
    (Command.outcome fingerprint disk comment.toUTF8 ["scan"]).output =
      annotationsOf comment ++ "\n" ∧
    Json.read (annotationsOf comment) =
      some (.map ((parse comment).names.map fun name => (name, .list ((parse comment).all name)))) ∧
    ∀ other, Readable (parse other) → (parse other).toList ≠ (parse comment).toList →
      annotationsOf other ≠ annotationsOf comment := by
  refine ⟨?_, ?_, ?_⟩
  · rw [Command.outcome_scan]
    rfl
  · rw [read_annotationsOf h, Annotations.toValue, Annotations.toList_parse, List.map_map]
    rfl
  · intro other hother hne heq
    exact hne (toList_eq_of_annotationsOf_eq hother h heq)

/-- A name with a quotation mark in it stands on two lines. -/
def quoted : String := "@\"n a, [true]\n@m\n@\"n \"\\t\""

theorem readable_quoted : Readable (parse quoted) := by
  have hscan : Comment.scan quoted =
      [⟨"@\"n", some "a, [true]"⟩, ⟨"@m", none⟩, ⟨"@\"n", some "\"\\t\""⟩] := by decide +kernel
  have hitems : Coercion.readList? "a, [true]".toList = some [.text "a", .list [.bool true]] := by
    cbv
  have hlist : Coercion.coerce (some "a, [true]") = .list [.text "a", .list [.bool true]] := by
    rw [Coercion.coerce, Coercion.ofChars_of_list (by decide) (by cbv) hitems]
  have hnone : Coercion.coerce none = .bool true := rfl
  have hliteral : Coercion.readLiteral? "\"\\t\"".toList = some (.text "\t") := by cbv
  have htext : Coercion.coerce (some "\"\\t\"") = .text "\t" := by
    rw [Coercion.coerce, Coercion.ofChars_of_literal (by decide) hliteral]
  apply Annotations.readable_parse
  simp [hscan, hlist, hnone, htext, Value.FloatFree, Value.parts, Value.itemParts,
    Value.depth, Value.itemDepth]

theorem annotationsOf_lossless_quoted :
    Json.read (annotationsOf quoted) =
      some (.map ((parse quoted).names.map fun name => (name, .list ((parse quoted).all name)))) ∧
    annotationsOf "" ≠ annotationsOf quoted := by
  obtain ⟨-, hread, hprint⟩ := annotationsOf_lossless id (FileTree.disk ⟨.folder [], []⟩) quoted
    readable_quoted
  have hempty : Comment.scan "" = [] := by decide
  refine ⟨hread, hprint "" (Annotations.readable_parse (by simp [hempty])) ?_⟩
  intro heq
  have hnames := congrArg (List.map (·.1)) heq
  rw [← Annotations.names_eq, ← Annotations.names_eq, Annotations.names_parse,
    Annotations.names_parse] at hnames
  exact absurd hnames (by decide +kernel)

end Query

end DocAnnotations
