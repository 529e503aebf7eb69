import Mathlib.Data.List.Forall2
import CloudBalancer.Proofs.SourceRanges

/-!
What the order of the source ranges matters for. The filter does not depend on it, but whether a
range is reported that is no block does: the scan of the ranges ends at the first block of every
address, and nothing behind it is looked at. Main statement: the order is irrelevant to the builder
exactly if no range that is no block is hidden in that way.
-/

namespace CloudBalancer

open Annotations

/-- The range is a block of every address. -/
def Unlimited (range : String) : Prop :=
  ∃ block, rangeBlock? range = some block ∧ block.length = 0

/-- A range is no block. -/
def Misdeclared (ranges : List String) : Prop :=
  ∃ range ∈ ranges, rangeBlock? range = none

/-- The ranges up to a block of every address are blocks, and one behind it is none. -/
inductive Masked : List String → Prop
  | here {range : String} {rest : List String} (unlimited : Unlimited range)
      (behind : Misdeclared rest) : Masked (range :: rest)
  | later {range : String} {rest : List String} (block : (rangeBlock? range).isSome)
      (masked : Masked rest) : Masked (range :: rest)

theorem Masked.misdeclared {ranges : List String} (masked : Masked ranges) :
    Misdeclared ranges := by
  induction masked with
  | here _ behind =>
      obtain ⟨range, member, unread⟩ := behind
      exact ⟨range, List.mem_cons_of_mem _ member, unread⟩
  | later _ _ ih =>
      obtain ⟨range, member, unread⟩ := ih
      exact ⟨range, List.mem_cons_of_mem _ member, unread⟩

/-- The entry is that of one of the ranges. -/
def EntryOf (ranges : List String) (entry : String) : Prop :=
  ∃ range ∈ ranges, ∃ block, rangeBlock? range = some block ∧
    entry = filterEntry (Text.trim range) block

/-- What is made of ranges that are all read: no entries if one is a block of every address, else
those of the ranges. -/
def MadeOf (ranges : List String) : Option (List String) → Prop
  | none => ∃ range ∈ ranges, Unlimited range
  | some entries =>
    (∀ range ∈ ranges, ¬ Unlimited range) ∧ ∀ entry, entry ∈ entries ↔ EntryOf ranges entry

section Scan

variable {range : String} {rest ranges : List String} {block : Network.Block}

theorem unlimited_iff (h : rangeBlock? range = some block) :
    Unlimited range ↔ block.length = 0 := by
  simp [Unlimited, h]

theorem misdeclared_cons (h : rangeBlock? range = some block) :
    Misdeclared (range :: rest) ↔ Misdeclared rest := by
  simp [Misdeclared, h]

theorem not_masked_of_first (h : rangeBlock? range = none) : ¬ Masked (range :: rest) := by
  intro masked
  cases masked with
  | here unlimited =>
      obtain ⟨block, named, -⟩ := unlimited
      rw [h] at named
      cases named
  | later named => rw [h] at named; cases named

theorem masked_cons (h : rangeBlock? range = some block) (limited : block.length ≠ 0) :
    Masked (range :: rest) ↔ Masked rest := by
  constructor
  · intro masked
    cases masked with
    | here unlimited => exact absurd ((unlimited_iff h).1 unlimited) limited
    | later _ masked => exact masked
  · exact .later (by rw [h]; rfl)

theorem filterEntries_cons_none (h : rangeBlock? range = none) :
    filterEntries (range :: rest) = .error (.invalidSourceRange (Text.trim range)) := by
  have unread : Network.Block.parse? (Text.trim range) = none := h
  unfold filterEntries
  dsimp only
  rw [unread]

/-- The scan fails if one of the ranges is no block, unless a block of every address hides it. -/
theorem filterEntries_fails_iff :
    (∃ fault, filterEntries ranges = .error fault) ↔ Misdeclared ranges ∧ ¬ Masked ranges := by
  induction ranges with
  | nil =>
      have taken : filterEntries [] = .ok (some []) := rfl
      exact iff_of_false (by simp [taken]) (by simp [Misdeclared])
  | cons range rest ih =>
      cases named : rangeBlock? range with
      | none =>
          rw [filterEntries_cons_none named]
          exact iff_of_true ⟨_, rfl⟩
            ⟨⟨range, List.mem_cons_self, named⟩, not_masked_of_first named⟩
      | some block =>
          rw [filterEntries_cons named, misdeclared_cons named]
          split
          · next all =>
            have open_here : Unlimited range := (unlimited_iff named).2 all
            exact iff_of_false (by simp) fun ⟨behind, unmasked⟩ =>
              unmasked (.here open_here behind)
          · next limited =>
            rw [masked_cons named limited, ← ih]
            cases filterEntries rest <;> simp [Except.map]

theorem filterEntries_error {fault : BuildError} (h : filterEntries ranges = .error fault) :
    ∃ range, fault = .invalidSourceRange range := by
  induction ranges with
  | nil => cases h
  | cons range rest ih =>
      cases named : rangeBlock? range with
      | none =>
          rw [filterEntries_cons_none named] at h
          cases h
          exact ⟨_, rfl⟩
      | some block =>
          rw [filterEntries_cons named] at h
          split at h
          · cases h
          · cases read : filterEntries rest with
            | ok entries => rw [read] at h; cases h
            | error behind =>
                rw [read] at h
                cases h
                exact ih read

theorem entryOf_cons (h : rangeBlock? range = some block) (entry : String) :
    EntryOf (range :: rest) entry ↔
      entry = filterEntry (Text.trim range) block ∨ EntryOf rest entry := by
  simp [EntryOf, h]

theorem madeOf_filterEntries {made : Option (List String)} (h : filterEntries ranges = .ok made) :
    MadeOf ranges made := by
  induction ranges generalizing made with
  | nil =>
      cases h
      exact ⟨by simp, by simp [EntryOf]⟩
  | cons range rest ih =>
      cases named : rangeBlock? range with
      | none =>
          rw [filterEntries_cons_none named] at h
          cases h
      | some block =>
          rw [filterEntries_cons named] at h
          split at h
          · next all =>
            cases h
            exact ⟨range, List.mem_cons_self, (unlimited_iff named).2 all⟩
          · next limited =>
            obtain ⟨more, read, rfl⟩ := map_eq_ok_iff.1 h
            cases more with
            | none =>
                obtain ⟨other, member, unlimited⟩ := ih read
                exact ⟨other, List.mem_cons_of_mem range member, unlimited⟩
            | some entries =>
                obtain ⟨others, listed⟩ := ih read
                refine ⟨List.forall_mem_cons.2 ⟨mt (unlimited_iff named).1 limited, others⟩, ?_⟩
                intro entry
                rw [List.mem_cons, entryOf_cons named, listed]

end Scan

/-- The filter is that of the ranges, however they are ordered. -/
theorem mem_sourceFilter {service : Service} {filters : List String}
    (h : sourceFilter service = .ok filters) (entry : String) :
    entry ∈ filters ↔
      (∀ range ∈ service.ranges, ¬ Unlimited range) ∧ EntryOf service.ranges entry := by
  obtain ⟨made, read, taken⟩ := bind_eq_ok_iff.1 h
  have comprised := madeOf_filterEntries read
  cases made with
  | none =>
      cases taken
      obtain ⟨range, member, unlimited⟩ := comprised
      exact iff_of_false (by simp) fun ⟨limited, _⟩ => limited range member unlimited
  | some entries =>
      cases taken
      obtain ⟨limited, listed⟩ := comprised
      rw [List.mem_eraseDups, listed]
      exact (and_iff_right limited).symm

/-- The part of the builder does not look at source ranges. -/
def OffRange {α : Type} (x : Except BuildError α) : Prop :=
  ∀ range, x ≠ .error (.invalidSourceRange range)

namespace OffRange

variable {α β : Type}

theorem pure (a : α) : OffRange (Pure.pure a) :=
  fun _ refused => nomatch refused

theorem bind {x : Except BuildError α} {f : α → Except BuildError β} (first : OffRange x)
    (after : ∀ a, OffRange (f a)) : OffRange (x >>= f) := by
  intro range refused
  cases bind_eq_error_iff.1 refused with
  | inl early => exact first range early
  | inr late =>
      obtain ⟨a, _, refused⟩ := late
      exact after a range refused

theorem readOr {read : String → Except AnnotationFault α} {annotations : NameMap String}
    {key : String} {absent : α} : OffRange (Annotations.readOr read annotations key absent) := by
  intro range refused
  rw [Annotations.readOr] at refused
  split at refused
  · cases refused
  · next value _ =>
    cases taken : read value with
    | ok a => rw [taken] at refused; cases refused
    | error fault => rw [taken] at refused; cases refused

theorem policy (annotations : NameMap String) : OffRange (Policy.ofAnnotations annotations) := by
  have protocol : OffRange (Policy.echoChecks? annotations) := by
    intro range refused
    rw [Policy.echoChecks?] at refused
    repeat' split at refused
    all_goals cases refused
  refine protocol.bind fun _ => ?_
  exact readOr.bind fun _ => readOr.bind fun _ => readOr.bind fun _ => readOr.bind fun _ =>
    readOr.bind fun _ => .pure _

theorem nodePorts (ports : List ServicePort) : OffRange (nodePorts ports) := by
  induction ports with
  | nil => exact .pure _
  | cons port rest ih =>
      rw [CloudBalancer.nodePorts]
      split
      · intro range refused
        cases refused
      · refine ih.bind fun more => ?_
        split <;> exact .pure _

theorem usablePorts (service : Service) : OffRange (usablePorts service) := by
  refine (nodePorts service.ports).bind fun pairs => ?_
  split
  · exact fun _ refused => nomatch refused
  · exact .pure _

end OffRange

theorem sourceFilter_eq_error_iff {service : Service} {fault : BuildError} :
    sourceFilter service = .error fault ↔ filterEntries service.ranges = .error fault := by
  rw [sourceFilter, bind_eq_error_iff]
  constructor
  · intro failed
    cases failed with
    | inl early => exact early
    | inr late =>
        obtain ⟨made, -, failed⟩ := late
        cases made <;> cases failed
  · exact .inl

section Builder

variable {name : String} {backends : List Backend} {service s t : Service}

/-- The builder fails because of a source range. -/
def RangeRefused (name : String) (backends : List Backend) (service : Service) : Prop :=
  ∃ range, desiredL4 name backends service = .error (.invalidSourceRange range)

theorem rangeRefused_iff :
    RangeRefused name backends service ↔ PolicyDeclared service.annotations ∧
      Misdeclared service.ranges ∧ ¬ Masked service.ranges := by
  rw [← filterEntries_fails_iff, ← Policy.exists_ofAnnotations_iff]
  simp only [RangeRefused, desiredL4, bind_eq_error_iff, sourceFilter_eq_error_iff]
  constructor
  · intro failed
    obtain ⟨range, early | ⟨policy, read, refused | ⟨filters, -, late⟩⟩⟩ := failed
    · exact absurd early (OffRange.policy _ range)
    · exact ⟨⟨policy, read⟩, _, refused⟩
    · have off : OffRange (do
          let pairs ← usablePorts service
          return pairs.map (policy.port name backends filters ())) :=
        (OffRange.usablePorts service).bind fun _ => .pure _
      exact absurd (bind_eq_error_iff.2 late) (off range)
  · intro failed
    obtain ⟨⟨policy, read⟩, fault, refused⟩ := failed
    obtain ⟨range, rfl⟩ := filterEntries_error refused
    exact ⟨range, .inr ⟨policy, read, .inl refused⟩⟩

/-- Without another defect the builder fails if the scan of the ranges does. -/
theorem desiredL4_fails_iff (policy : PolicyDeclared service.annotations)
    (ports : PortsDeclared service.ports) :
    (∃ fault, desiredL4 name backends service = .error fault) ↔
      Misdeclared service.ranges ∧ ¬ Masked service.ranges := by
  constructor
  · intro ⟨fault, failed⟩
    rw [← filterEntries_fails_iff]
    cases filter : sourceFilter service with
    | error fault => exact ⟨fault, sourceFilter_eq_error_iff.1 filter⟩
    | ok filters =>
        obtain ⟨made, read⟩ := Policy.exists_ofAnnotations_iff.2 policy
        rw [desiredL4_eq_ok_iff.2 ⟨made, filters, read, filter, ports, rfl⟩] at failed
        cases failed
  · intro refused
    obtain ⟨range, refused⟩ := rangeRefused_iff.2 ⟨policy, refused⟩
    exact ⟨_, refused⟩

/-- The services differ in the order of their source ranges at most, or in what no port depends
on. -/
structure Reordered (s t : Service) : Prop where
  ports : s.ports = t.ports
  annotations : ∀ key ≠ sourceRanges, s.annotations.get? key = t.annotations.get? key
  ranges : s.ranges.Perm t.ranges

theorem reordered_sourceRanges (service : Service) {ranges others : List String}
    (perm : ranges.Perm others) :
    Reordered { service with sourceRanges := ranges } { service with sourceRanges := others } := by
  refine ⟨rfl, fun _ _ => rfl, ?_⟩
  have empty : ranges.isEmpty = others.isEmpty := by
    rw [Bool.eq_iff_iff, List.isEmpty_iff_length_eq_zero, List.isEmpty_iff_length_eq_zero,
      perm.length_eq]
  simp only [Service.ranges, empty]
  split
  · exact .refl _
  · exact perm

namespace Reordered

variable (reordered : Reordered s t)

include reordered

theorem misdeclared_iff : Misdeclared s.ranges ↔ Misdeclared t.ranges := by
  simp only [Misdeclared, reordered.ranges.mem_iff]

theorem policy_eq : Policy.ofAnnotations s.annotations = Policy.ofAnnotations t.annotations :=
  Policy.ofAnnotations_congr reordered.annotations

theorem mem_filter_iff {filters others : List String} (hs : sourceFilter s = .ok filters)
    (ht : sourceFilter t = .ok others) (entry : String) : entry ∈ filters ↔ entry ∈ others := by
  simp only [mem_sourceFilter hs, mem_sourceFilter ht, EntryOf, reordered.ranges.mem_iff]

theorem policyDeclared_iff : PolicyDeclared s.annotations ↔ PolicyDeclared t.annotations := by
  rw [← Policy.exists_ofAnnotations_iff, ← Policy.exists_ofAnnotations_iff, reordered.policy_eq]

end Reordered

/-- The ports differ in the order of their filters at most. -/
structure SameButOrder (p q : L4Port) : Prop where
  unfiltered : { q with filters := p.filters } = p
  filters : ∀ entry, entry ∈ p.filters ↔ entry ∈ q.filters

theorem Reordered.built {ports others : List L4Port} (reordered : Reordered s t)
    (hs : desiredL4 name backends s = .ok ports) (ht : desiredL4 name backends t = .ok others) :
    List.Forall₂ SameButOrder ports others := by
  obtain ⟨policy, filters, read, filter, -, rfl⟩ := desiredL4_eq_ok_iff.1 hs
  obtain ⟨policy', filters', read', filter', -, rfl⟩ := desiredL4_eq_ok_iff.1 ht
  rw [reordered.policy_eq, read'] at read
  cases read
  rw [reordered.ports, List.forall₂_map_left_iff, List.forall₂_map_right_iff, List.forall₂_same]
  intro pair _
  exact ⟨rfl, reordered.mem_filter_iff filter filter'⟩

/-- The builder treats services alike that differ in the order of their ranges: ranges are reported
for both or for neither, for a service without other defects exactly if one is no block, and the
ports have the same filters. -/
structure OrderIrrelevant (name : String) (backends : List Backend) (s t : Service) : Prop where
  refused : RangeRefused name backends s ↔ RangeRefused name backends t
  reported : ∀ service ∈ [s, t], PolicyDeclared service.annotations → PortsDeclared service.ports →
    (RangeRefused name backends service ↔ Misdeclared service.ranges) ∧
      ((∃ ports, desiredL4 name backends service = .ok ports) ↔ ¬ Misdeclared service.ranges)
  built : ∀ ports others, desiredL4 name backends s = .ok ports →
    desiredL4 name backends t = .ok others → List.Forall₂ SameButOrder ports others

/-- Nothing is hidden, so that a range that is no block is always reported. -/
theorem reported_of_unmasked (policy : PolicyDeclared service.annotations)
    (ports : PortsDeclared service.ports) (unmasked : ¬ Masked service.ranges) :
    (RangeRefused name backends service ↔ Misdeclared service.ranges) ∧
      ((∃ ports, desiredL4 name backends service = .ok ports) ↔ ¬ Misdeclared service.ranges) := by
  have fails : (∃ fault, desiredL4 name backends service = .error fault) ↔
      Misdeclared service.ranges ∧ ¬ Masked service.ranges := desiredL4_fails_iff policy ports
  rw [rangeRefused_iff]
  simp only [policy, unmasked, not_false_eq_true, and_true, true_and] at fails ⊢
  rw [← fails]
  cases desiredL4 name backends service <;> simp

/-- The order of the source ranges is irrelevant exactly if, as far as the policy is declared, both
orders hide a range that is no block or neither does, and neither if the ports are declared too. -/
theorem order_irrelevant_iff (reordered : Reordered s t) (name : String)
    (backends : List Backend) :
    OrderIrrelevant name backends s t ↔
      (PolicyDeclared s.annotations → (Masked s.ranges ↔ Masked t.ranges) ∧
        (PortsDeclared s.ports → ¬ Masked s.ranges)) := by
  constructor
  · intro irrelevant policy
    have policy' := reordered.policyDeclared_iff.1 policy
    have refused := irrelevant.refused
    rw [rangeRefused_iff, rangeRefused_iff, ← reordered.misdeclared_iff] at refused
    refine ⟨?_, fun ports masked => ?_⟩
    · by_cases misdeclared : Misdeclared s.ranges
      · simpa only [policy, policy', misdeclared, true_and, not_iff_not] using refused
      · have none_there : ¬ Misdeclared t.ranges := mt reordered.misdeclared_iff.2 misdeclared
        exact iff_of_false (mt Masked.misdeclared misdeclared) (mt Masked.misdeclared none_there)
    · obtain ⟨reported, -⟩ := irrelevant.reported s List.mem_cons_self policy ports
      exact (rangeRefused_iff.1 (reported.2 masked.misdeclared)).2.2 masked
  · intro clear
    refine ⟨?_, fun service member policy ports => ?_, fun _ _ => reordered.built⟩
    · rw [rangeRefused_iff, rangeRefused_iff, ← reordered.misdeclared_iff,
        ← reordered.policyDeclared_iff]
      exact and_congr_right fun policy => and_congr_right fun _ => not_congr (clear policy).1
    · simp only [List.mem_cons, List.not_mem_nil, or_false] at member
      cases member with
      | inl first =>
          subst first
          exact reported_of_unmasked policy ports ((clear policy).2 ports)
      | inr second =>
          subst second
          obtain ⟨both, unmasked⟩ := clear (reordered.policyDeclared_iff.2 policy)
          exact reported_of_unmasked policy ports
            (mt both.2 (unmasked (reordered.ports ▸ ports)))

end Builder

namespace Sample

/-- An L4 service with one port whose ranges are in an annotation. -/
def annotated (ranges : String) : Service :=
  { restricted [] with annotations := NameMap.insert ∅ sourceRanges ranges }

end Sample

theorem order_irrelevant_to_annotation :
    Reordered (Sample.annotated "10.0.0.0/8, bad") (Sample.annotated "bad,10.0.0.0/8") ∧
      OrderIrrelevant "web" [] (Sample.annotated "10.0.0.0/8, bad")
        (Sample.annotated "bad,10.0.0.0/8") := by
  have first : (Sample.annotated "10.0.0.0/8, bad").ranges = ["10.0.0.0/8", "bad"] := by
    decide +kernel
  have second : (Sample.annotated "bad,10.0.0.0/8").ranges = ["bad", "10.0.0.0/8"] := by
    decide +kernel
  have reordered :
      Reordered (Sample.annotated "10.0.0.0/8, bad") (Sample.annotated "bad,10.0.0.0/8") := by
    refine ⟨rfl, fun key other => ?_, by rw [first, second]; exact .swap ..⟩
    rw [Sample.annotated, Sample.annotated, NameMap.get?_insert, NameMap.get?_insert,
      if_neg other, if_neg other]
  have block : rangeBlock? "10.0.0.0/8" = some (.v4 (.ofOctets 10 0 0 0) 8) := by decide +kernel
  have bad : rangeBlock? "bad" = none := by decide +kernel
  have unmasked : ¬ Masked ["10.0.0.0/8", "bad"] := by
    rw [masked_cons block (by decide)]
    exact not_masked_of_first bad
  refine ⟨reordered, (order_irrelevant_iff reordered "web" []).2 fun _ => ?_⟩
  rw [first, second]
  exact ⟨iff_of_false unmasked (not_masked_of_first bad), fun _ => unmasked⟩

/-- Behind a block of every address the range that is no block goes unreported, before it is
reported. -/
theorem hidden_range_unreported :
    Reordered (Sample.restricted ["0.0.0.0/0", "bad"]) (Sample.restricted ["bad", "0.0.0.0/0"]) ∧
      (∃ ports, desiredL4 "web" [] (Sample.restricted ["0.0.0.0/0", "bad"]) = .ok ports) ∧
      desiredL4 "web" [] (Sample.restricted ["bad", "0.0.0.0/0"]) =
        .error (.invalidSourceRange "bad") ∧
      ¬ OrderIrrelevant "web" [] (Sample.restricted ["0.0.0.0/0", "bad"])
        (Sample.restricted ["bad", "0.0.0.0/0"]) := by
  have accepted :
      (desiredL4 "web" [] (Sample.restricted ["0.0.0.0/0", "bad"])).isOk = true := by
    decide +kernel
  have reported : desiredL4 "web" [] (Sample.restricted ["bad", "0.0.0.0/0"]) =
      .error (.invalidSourceRange "bad") := by decide +kernel
  cases built : desiredL4 "web" [] (Sample.restricted ["0.0.0.0/0", "bad"]) with
  | error fault => rw [built] at accepted; cases accepted
  | ok ports =>
      refine ⟨reordered_sourceRanges (Sample.restricted []) (.swap ..), ⟨ports, rfl⟩,
        reported, fun irrelevant => ?_⟩
      obtain ⟨range, refused⟩ := irrelevant.refused.2 ⟨"bad", reported⟩
      rw [built] at refused
      cases refused

end CloudBalancer
