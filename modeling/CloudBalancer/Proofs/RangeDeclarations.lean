import CloudBalancer.Proofs.CommaLists
import CloudBalancer.Proofs.RangeOrder

/-!
The two ways to declare source ranges, a list of the service itself and an annotation in which they
are joined by commas. Ranges are trimmed when they are read, those of an annotation once more
before. Main statement: a service gets the same ports either way, or the same error.
-/

namespace CloudBalancer

open Annotations

namespace Annotations

/-- An annotation is a list as it is written: that it is trimmed first changes nothing, and a blank
one has no items. -/
theorem list_eq (annotations : NameMap String) (key : String) :
    list annotations key = ((annotations.get? key).map Text.commaItems).getD [] := by
  rw [list, get?]
  cases annotations.get? key with
  | none => rfl
  | some value =>
      rw [Option.map_some, Option.map_some, Option.getD_some, ← Text.commaItems_trim value]
      by_cases blank : Text.trim value = ""
      · rw [blank]
        decide
      · simp [blank]

end Annotations

/-- Trimming ranges first changes nothing about their entries, nor about an error. -/
theorem filterEntries_map_trim (ranges : List String) :
    filterEntries (ranges.map Text.trim) = filterEntries ranges := by
  induction ranges with
  | nil => rfl
  | cons range rest ih =>
      have same : rangeBlock? (Text.trim range) = rangeBlock? range := by
        rw [rangeBlock?, rangeBlock?, Text.trim_trim]
      cases named : rangeBlock? range with
      | none =>
          rw [List.map_cons, filterEntries_cons_none named,
            filterEntries_cons_none (same.trans named), Text.trim_trim]
      | some block =>
          rw [List.map_cons, filterEntries_cons named, filterEntries_cons (same.trans named), ih,
            Text.trim_trim]

theorem desiredL4_congr {s t : Service} (ports : s.ports = t.ports)
    (annotations : ∀ key ≠ sourceRanges, s.annotations.get? key = t.annotations.get? key)
    (entries : filterEntries s.ranges = filterEntries t.ranges) (name : String)
    (backends : List Backend) : desiredL4 name backends s = desiredL4 name backends t := by
  rw [desiredL4, desiredL4, Policy.ofAnnotations_congr annotations, sourceFilter, sourceFilter,
    entries, usablePorts, usablePorts, ports]

/-- The first service declares the ranges itself, the second one in its annotation, joined by commas
and with blanks around them. They differ in nothing else that their ports depend on. -/
structure DeclaredEitherWay (ranges : List String) (own annotated : Service) : Prop where
  ports : own.ports = annotated.ports
  annotations : ∀ key ≠ sourceRanges,
    own.annotations.get? key = annotated.annotations.get? key
  itself : own.sourceRanges = ranges
  not_itself : annotated.sourceRanges = []
  joined : ∃ padded, List.Forall₂ Text.Padded ranges padded ∧
    annotated.annotations.get? sourceRanges = some (",".intercalate padded)

namespace DeclaredEitherWay

variable {ranges : List String} {own annotated : Service}

theorem ranges_own (declared : DeclaredEitherWay ranges own annotated) (some_range : ranges ≠ []) :
    own.ranges = ranges := by
  rw [Service.ranges, declared.itself, if_neg (by simpa using some_range)]

theorem ranges_annotated (declared : DeclaredEitherWay ranges own annotated)
    (some_range : ranges ≠ []) (items : ∀ range ∈ ranges, Text.IsItem range) :
    annotated.ranges = ranges.map Text.trim := by
  obtain ⟨padded, pads, annotation⟩ := declared.joined
  rw [Service.ranges, declared.not_itself, List.isEmpty_nil, if_pos rfl, list_eq, annotation,
    Option.map_some, Option.getD_some, Text.commaItems_joined pads some_range items]

end DeclaredEitherWay

/-- It does not matter to the ports of a service, nor to an error, in which of the two ways its
source ranges are declared, as long as there are some, none is blank and none has a comma. -/
theorem declared_either_way {ranges : List String} {own annotated : Service}
    (declared : DeclaredEitherWay ranges own annotated) (some_range : ranges ≠ [])
    (items : ∀ range ∈ ranges, Text.IsItem range) (name : String) (backends : List Backend) :
    desiredL4 name backends own = desiredL4 name backends annotated := by
  have entries : filterEntries own.ranges = filterEntries annotated.ranges := by
    rw [declared.ranges_own some_range, declared.ranges_annotated some_range items,
      filterEntries_map_trim]
  exact desiredL4_congr declared.ports declared.annotations entries name backends

namespace Sample

/-- One range has a blank of its own, and the last is no block. -/
def looseRanges : List String := ["10.9.0.0/8 ", "192.0.2.7/32", "no block"]

/-- The same with blanks of several kinds around each. -/
def joinedRanges : String := "\u3000\t10.9.0.0/8 ,192.0.2.7/32\u00a0, no block\n"

theorem padded_looseRanges : List.Forall₂ Text.Padded looseRanges
    ["\u3000\t10.9.0.0/8 ", "192.0.2.7/32\u00a0", " no block\n"] := by
  refine .cons ?_ (.cons ?_ (.cons ?_ .nil))
  · exact ⟨"\u3000\t", "", by decide, by decide, by decide⟩
  · exact ⟨"", "\u00a0", by decide, by decide, by decide⟩
  · exact ⟨" ", "\n", by decide, by decide, by decide⟩

end Sample

theorem declared_either_way_padded :
    DeclaredEitherWay Sample.looseRanges (Sample.restricted Sample.looseRanges)
        (Sample.annotated Sample.joinedRanges) ∧
      (∀ range ∈ Sample.looseRanges, Text.IsItem range) ∧
      desiredL4 "web" [] (Sample.restricted Sample.looseRanges) =
        desiredL4 "web" [] (Sample.annotated Sample.joinedRanges) := by
  have annotations (key : String) :
      (Sample.annotated Sample.joinedRanges).annotations.get? key =
        if key = sourceRanges then some Sample.joinedRanges else none := by
    rw [Sample.annotated, NameMap.get?_insert, NameMap.get?_empty]
  have declared : DeclaredEitherWay Sample.looseRanges (Sample.restricted Sample.looseRanges)
      (Sample.annotated Sample.joinedRanges) := by
    refine ⟨rfl, fun key other => ?_, rfl, rfl, _, Sample.padded_looseRanges, ?_⟩
    · rw [annotations, if_neg other]
      rfl
    · rw [annotations, if_pos rfl]
      decide
  have items : ∀ range ∈ Sample.looseRanges, Text.IsItem range := by decide
  exact ⟨declared, items, declared_either_way declared (by decide) items "web" []⟩

end CloudBalancer
