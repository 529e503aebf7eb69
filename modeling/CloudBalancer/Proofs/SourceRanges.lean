import CloudBalancer.Proofs.AddressText
import CloudBalancer.Proofs.Probes

/-!
Who gets through the filters that come from the source ranges of a service: whoever is in one of the
ranges. A single address is written bare and stands for itself, what is repeated is kept once. A
block of every address means no filter at all, that of IPv6 included, which lets every IPv4 address
through although none is in it.
-/

namespace CloudBalancer

namespace Network

/-- The address agrees with that of the block on the bits that the block fixes. Blocks of IPv6 have
no IPv4 addresses. -/
def Block.Contains : Block → Ipv4 → Prop
  | .v4 network length, a =>
    a.value.val >>> (32 - length.val) = network.value.val >>> (32 - length.val)
  | .v6 _ _, _ => False

theorem Block.contains_single (network a : Ipv4) {length : Fin 33} (single : length.val = 32) :
    (Block.v4 network length).Contains a ↔ network = a := by
  obtain ⟨⟨n, hn⟩⟩ := network
  obtain ⟨⟨m, hm⟩⟩ := a
  simp [Block.Contains, single, eq_comm]

theorem Block.contains_all (network a : Ipv4) {length : Fin 33} (all : length.val = 0) :
    (Block.v4 network length).Contains a := by
  obtain ⟨⟨n, hn⟩⟩ := network
  obtain ⟨⟨m, hm⟩⟩ := a
  simp only [Block.Contains, all, Nat.shiftRight_eq_div_pow]
  omega

end Network

open Network

/-- A filter entry lets an address through: the one that it is, or those of the block that it
names. -/
def EntryAdmits (entry : String) (a : Ipv4) : Prop :=
  Ipv4.parse? entry = some a ∨ ∃ block, Block.parse? entry = some block ∧ block.Contains a

/-- A filter lets an address through. An empty filter lets everything through. -/
def FilterAdmits (filters : List String) (a : Ipv4) : Prop :=
  filters = [] ∨ ∃ entry ∈ filters, EntryAdmits entry a

/-- The block that a declared range names. -/
def rangeBlock? (range : String) : Option Block :=
  Block.parse? (Text.trim range)

theorem entryAdmits_filterEntry {range : String} {block : Block}
    (h : Block.parse? range = some block) (a : Ipv4) :
    EntryAdmits (filterEntry range block) a ↔ block.Contains a := by
  have kept : EntryAdmits range a ↔ block.Contains a := by
    have unaddressed : Ipv4.parse? range ≠ some a := fun address => by
      rw [Block.parse?_of_address address] at h
      cases h
    simp [EntryAdmits, unaddressed, h]
  unfold filterEntry
  split
  · next network length =>
    split
    · next single =>
      rw [Block.contains_single network a single, EntryAdmits, Ipv4.parse?_text,
        Block.parse?_of_address network.parse?_text]
      simp
    · exact kept
  · exact kept

theorem filterEntries_cons {range : String} {rest : List String} {block : Block}
    (h : rangeBlock? range = some block) :
    filterEntries (range :: rest) =
      if block.length = 0 then .ok none
      else (filterEntries rest).map (Option.map (filterEntry (Text.trim range) block :: ·)) := by
  have read : Block.parse? (Text.trim range) = some block := h
  conv => lhs; unfold filterEntries
  dsimp only
  rw [read]
  dsimp only
  split
  · rfl
  · cases filterEntries rest <;> rfl

/-- One of the ranges has the address. -/
def RangesHold (ranges : List String) (a : Ipv4) : Prop :=
  ∃ range ∈ ranges, ∃ block, rangeBlock? range = some block ∧ block.Contains a

/-- One of the ranges is the block of every IPv6 address. -/
def RangesOpen (ranges : List String) : Prop :=
  ∃ range ∈ ranges, ∃ network length,
    rangeBlock? range = some (.v6 network length) ∧ length.val = 0

theorem rangesHold_cons {range : String} {rest : List String} {block : Block}
    (h : rangeBlock? range = some block) (a : Ipv4) :
    RangesHold (range :: rest) a ↔ block.Contains a ∨ RangesHold rest a := by
  simp [RangesHold, h]

theorem rangesOpen_cons {range : String} {rest : List String} {block : Block}
    (h : rangeBlock? range = some block) (some_length : block.length ≠ 0) :
    RangesOpen (range :: rest) ↔ RangesOpen rest := by
  have closed (network : Ipv6) (length : Fin 129) (same : block = .v6 network length) :
      length.val ≠ 0 := by
    rw [same] at some_length
    exact some_length
  simp only [RangesOpen, List.mem_cons, exists_eq_or_imp, h, Option.some.injEq]
  constructor
  · intro opened
    cases opened with
    | inl first =>
        obtain ⟨network, length, same, all⟩ := first
        exact absurd all (closed network length same)
    | inr later => exact later
  · exact .inr

/-- A block of no length among the ranges lets every IPv4 address through, as one of IPv4 that has
it or as the one of IPv6. -/
theorem rangesHold_or_open {ranges : List String} {range : String} {block : Block}
    (declared : range ∈ ranges) (h : rangeBlock? range = some block) (all : block.length = 0)
    (a : Ipv4) : RangesHold ranges a ∨ RangesOpen ranges := by
  cases block with
  | v4 network length => exact .inl ⟨range, declared, _, h, Block.contains_all network a all⟩
  | v6 network length =>
      exact .inr ⟨range, declared, network, length, h, all⟩

/-- What the entries for ranges that all name a block come to. -/
theorem filterEntries_of_blocks {ranges : List String}
    (named : ∀ range ∈ ranges, (rangeBlock? range).isSome) :
    filterEntries ranges = .ok none ∧ (∀ a, RangesHold ranges a ∨ RangesOpen ranges) ∨
      ∃ entries, filterEntries ranges = .ok (some entries) ∧ (entries = [] ↔ ranges = []) ∧
        ¬ RangesOpen ranges ∧
        ∀ a, (∃ entry ∈ entries, EntryAdmits entry a) ↔ RangesHold ranges a := by
  induction ranges with
  | nil => exact .inr ⟨[], rfl, by simp, by simp [RangesOpen], by simp [RangesHold]⟩
  | cons range rest ih =>
      obtain ⟨block, hblock⟩ := Option.isSome_iff_exists.1 (named range List.mem_cons_self)
      rw [filterEntries_cons hblock]
      by_cases all : block.length = 0
      · rw [if_pos all]
        exact .inl ⟨rfl, rangesHold_or_open List.mem_cons_self hblock all⟩
      · have rest_named : ∀ other ∈ rest, (rangeBlock? other).isSome :=
          fun other hother => named other (List.mem_cons_of_mem range hother)
        have closed : RangesOpen (range :: rest) ↔ RangesOpen rest := rangesOpen_cons hblock all
        rw [if_neg all]
        cases ih rest_named with
        | inl everything =>
            obtain ⟨none_left, admits⟩ := everything
            refine .inl ⟨by rw [none_left]; rfl, fun a => ?_⟩
            rw [closed, rangesHold_cons hblock]
            exact (admits a).imp_left .inr
        | inr some_left =>
            obtain ⟨entries, hentries, -, unopened, admits⟩ := some_left
            refine .inr ⟨filterEntry (Text.trim range) block :: entries,
              by rw [hentries]; rfl, by simp, mt closed.1 unopened, fun a => ?_⟩
            rw [rangesHold_cons hblock, ← admits, ← entryAdmits_filterEntry hblock]
            simp

theorem sourceFilter_of_blocks {service : Service}
    (named : ∀ range ∈ service.ranges, (rangeBlock? range).isSome) :
    ∃ filters, sourceFilter service = .ok filters ∧ ∀ a, FilterAdmits filters a ↔
      service.ranges = [] ∨ RangesHold service.ranges a ∨ RangesOpen service.ranges := by
  cases filterEntries_of_blocks named with
  | inl everything =>
      obtain ⟨none_left, admits⟩ := everything
      refine ⟨[], by simp only [sourceFilter, none_left]; rfl, fun a => ?_⟩
      exact iff_of_true (.inl rfl) (.inr (admits a))
  | inr some_left =>
      obtain ⟨entries, hentries, empty, unopened, admits⟩ := some_left
      refine ⟨entries.eraseDups, by simp only [sourceFilter, hentries]; rfl, fun a => ?_⟩
      have erased : entries.eraseDups = [] ↔ entries = [] := by
        simp [List.eq_nil_iff_forall_not_mem]
      simp only [FilterAdmits, List.mem_eraseDups, erased, empty, admits, unopened, or_false]

/-- The filters of the L4 ports of a service whose source ranges all name a block let an IPv4
address through just where no range is declared, one of the ranges has the address, or one is the
block of every IPv6 address. -/
theorem sourceRanges_enforced {service : Service}
    (named : ∀ range ∈ service.ranges, (rangeBlock? range).isSome) :
    ∃ filters, sourceFilter service = .ok filters ∧
      (∀ name backends ports, desiredL4 name backends service = .ok ports →
        ∀ p ∈ ports, p.filters = filters) ∧
      ∀ a, FilterAdmits filters a ↔
        service.ranges = [] ∨ RangesHold service.ranges a ∨ RangesOpen service.ranges := by
  obtain ⟨filters, hfilters, admits⟩ := sourceFilter_of_blocks named
  refine ⟨filters, hfilters, ?_, admits⟩
  intro name backends ports built p hp
  obtain ⟨policy, others, pairs, hothers, rfl⟩ := desiredL4_eq_ok built
  rw [hfilters] at hothers
  cases hothers
  obtain ⟨pair, -, rfl⟩ := List.mem_map.1 hp
  rfl

namespace Sample

/-- An L4 service with one port that is restricted to the ranges. -/
def restricted (ranges : List String) : Service where
  uid := "web"
  ports := [{ protocol := tcp, port := 80, nodePort := some 30080 }]
  sourceRanges := ranges

/-- Bits beyond the prefix, leading zeros, blanks, a repetition, and a range of IPv6. -/
def mixedRanges : List String :=
  ["10.9.0.0/8", " 192.0.2.007/32 ", "192.0.2.7/32", "2001:db8::/32"]

/-- The last range is the block of every IPv6 address. -/
def openRanges : List String := ["2001:db8::/32", "::/0"]

end Sample

theorem sourceRanges_enforced_mixed :
    (∀ range ∈ Sample.mixedRanges, (rangeBlock? range).isSome) ∧
    ∃ filters, sourceFilter (Sample.restricted Sample.mixedRanges) = .ok filters ∧
      (∀ name backends ports,
        desiredL4 name backends (Sample.restricted Sample.mixedRanges) = .ok ports →
          ∀ p ∈ ports, p.filters = filters) ∧
      ∀ a, FilterAdmits filters a ↔ (Sample.restricted Sample.mixedRanges).ranges = [] ∨
        RangesHold (Sample.restricted Sample.mixedRanges).ranges a ∨
          RangesOpen (Sample.restricted Sample.mixedRanges).ranges :=
  ⟨by decide +kernel, sourceRanges_enforced (by decide +kernel)⟩

/-- With the block of every IPv6 address declared, an IPv4 address gets through that is in no
declared range. -/
theorem open_range_admits_undeclared :
    (∀ range ∈ (Sample.restricted Sample.openRanges).ranges, (rangeBlock? range).isSome) ∧
      (∃ ports, desiredL4 "web" [] (Sample.restricted Sample.openRanges) = .ok ports ∧
        ∃ p ∈ ports, FilterAdmits p.filters (.ofOctets 203 0 113 9)) ∧
      (Sample.restricted Sample.openRanges).ranges ≠ [] ∧
      ¬ RangesHold (Sample.restricted Sample.openRanges).ranges (.ofOctets 203 0 113 9) := by
  let port : L4Port :=
    { name := "web"
      settings := { accountingType := 1, policyType := "standard", balancingType := 1,
                    networkVolume := 10 }
      pair := ⟨80, 30080⟩
      healthCheck := { target := "TCP:30080" }
      backends := []
      filters := []
      vip := ""
      attachment := () }
  have built : desiredL4 "web" [] (Sample.restricted Sample.openRanges) = .ok [port] := by
    decide +kernel
  have blocks : ∀ range ∈ Sample.openRanges, ∀ network length,
      rangeBlock? range ≠ some (.v4 network length) := by
    have first : rangeBlock? "2001:db8::/32" =
        some (.v6 ⟨#v[0x2001, 0xdb8, 0, 0, 0, 0, 0, 0]⟩ 32) := by decide +kernel
    have second : rangeBlock? "::/0" = some (.v6 ⟨#v[0, 0, 0, 0, 0, 0, 0, 0]⟩ 0) := by
      decide +kernel
    simp [Sample.openRanges, first, second]
  refine ⟨by decide +kernel, ⟨[port], built, port, List.mem_singleton_self port, .inl rfl⟩,
    by decide, ?_⟩
  intro held
  obtain ⟨range, declared, block, hblock, contains⟩ := held
  cases block with
  | v4 network length => exact blocks range declared network length hblock
  | v6 network length => exact contains

end CloudBalancer
