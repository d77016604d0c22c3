import BinlogCdc.Stream.QueryCharsetContext

/-!
# What the status variables say

The status variables that the server writes, each with its layout, and the context they carry. The
decoder implements the layouts: it reads every section of well-formed variables with distinct tags,
and no other string.
-/

namespace BinlogCdc.QueryCharset

open Core

/-! ## Variables and layouts -/

/-- A status variable. -/
inductive StatusVariable
  | sqlMode (mode : UInt64)
  | charset (ids : QueryCharsetIds)
  | databaseCollation (id : UInt16)
  | collations (mapping : List (UInt16 × UInt16))
  /-- A variable of a fixed width. -/
  | fixed (tag : UInt8) (bytes : List UInt8)
  /-- A time zone, or a catalog without terminator. -/
  | name (tag : UInt8) (text : List UInt8)
  /-- A catalog with its terminator. -/
  | catalog (text : List UInt8)
  | invoker (user host : List UInt8)
  /-- Flags, and a sequence number if they commit or roll back an ALTER. -/
  | alterFlags (flags : UInt8) (sequence : List UInt8)

/-- The widths of the fixed variables that are skipped. -/
def fixedWidth (tag : UInt8) : Option Nat :=
  if tag ∈ ([0, 3, 10] : List UInt8) then some 4
  else if tag ∈ ([9, 129] : List UInt8) then some 8
  else if tag = 7 then some 2
  else if tag = 128 then some 3
  else none

/-- The tags of the status variables. -/
def knownTags : List UInt8 := [0, 1, 2, 3, 4, 5, 6, 7, 8, 9, 10, 11, 128, 129, 130, 131]

def encodeU16 (value : UInt16) : List UInt8 := toLeBytes 2 value.toNat

def encodePair (pair : UInt16 × UInt16) : List UInt8 := encodeU16 pair.1 ++ encodeU16 pair.2

def encodeString (text : List UInt8) : List UInt8 := UInt8.ofNat text.length :: text

/-- The mapping in the order of its charsets. -/
def sortedByCharset (mapping : List (UInt16 × UInt16)) : List (UInt16 × UInt16) :=
  mapping.insertionSort fun left right => left.1 ≤ right.1

namespace StatusVariable

def tag : StatusVariable → UInt8
  | sqlMode _ => 1
  | charset _ => 4
  | databaseCollation _ => 8
  | collations _ => 131
  | fixed tag _ => tag
  | name tag _ => tag
  | catalog _ => 2
  | invoker _ _ => 11
  | alterFlags _ _ => 130

def payload : StatusVariable → List UInt8
  | sqlMode mode => toLeBytes 8 mode.toNat
  | charset ids => encodeU16 ids.client ++ encodeU16 ids.connection ++ encodeU16 ids.server
  | databaseCollation id => encodeU16 id
  | collations mapping => UInt8.ofNat mapping.length :: mapping.flatMap encodePair
  | fixed _ bytes => bytes
  | name _ text => encodeString text
  | catalog text => encodeString text ++ [0]
  | invoker user host => encodeString user ++ encodeString host
  | alterFlags flags sequence => flags :: sequence

/-- The variable is one that the server can write. -/
def WellFormed : StatusVariable → Prop
  | sqlMode _ | charset _ | databaseCollation _ => True
  | collations mapping => mapping.length < 256 ∧ (mapping.map Prod.fst).Nodup
  | fixed tag bytes => fixedWidth tag = some bytes.length
  | name tag text => (tag = 5 ∨ tag = 6) ∧ text.length < 256
  | catalog text => text.length < 256
  | invoker user host => user.length < 256 ∧ host.length < 256
  | alterFlags flags sequence => sequence.length = if flags &&& 12 = 0 then 0 else 8

def encode (entry : StatusVariable) : List UInt8 := entry.tag :: entry.payload

def sqlMode? : StatusVariable → Option UInt64
  | sqlMode mode => some mode
  | _ => none

def charset? : StatusVariable → Option QueryCharsetIds
  | charset ids => some ids
  | _ => none

def databaseCollation? : StatusVariable → Option UInt16
  | databaseCollation id => some id
  | _ => none

def collations? : StatusVariable → Option (List (UInt16 × UInt16))
  | collations mapping => some (sortedByCharset mapping)
  | _ => none

/-- The context with what the variable says. -/
def record (context : QueryCharsetContext) : StatusVariable → QueryCharsetContext
  | sqlMode mode => { context with sqlMode := some mode }
  | charset ids => { context with charset := some ids }
  | databaseCollation id => { context with databaseCollation := some id }
  | collations mapping => { context with characterSetCollations := some (sortedByCharset mapping) }
  | _ => context

theorem fixedWidth_eq_some {tag : UInt8} {width : Nat} :
    fixedWidth tag = some width ↔
      (tag = 0 ∨ tag = 3 ∨ tag = 10) ∧ width = 4 ∨ (tag = 9 ∨ tag = 129) ∧ width = 8 ∨
        tag = 7 ∧ width = 2 ∨ tag = 128 ∧ width = 3 := by
  constructor
  · intro h
    unfold fixedWidth at h
    split at h
    · simp_all
    · split at h
      · simp_all
      · split at h
        · simp_all
        · split at h <;> simp_all
  · rintro (⟨rfl | rfl | rfl, rfl⟩ | ⟨rfl | rfl, rfl⟩ | ⟨rfl, rfl⟩ | ⟨rfl, rfl⟩) <;> decide

theorem tag_mem_knownTags {v : StatusVariable} (h : v.WellFormed) : v.tag ∈ knownTags := by
  cases v with
  | fixed tag bytes =>
    change tag ∈ knownTags
    rcases fixedWidth_eq_some.mp h with
      ⟨rfl | rfl | rfl, -⟩ | ⟨rfl | rfl, -⟩ | ⟨rfl, -⟩ | ⟨rfl, -⟩ <;> decide
  | name tag text =>
    change tag ∈ knownTags
    rcases h.1 with rfl | rfl <;> decide
  | _ => simp [tag, knownTags]

end StatusVariable

/-- The bytes of a list of variables. -/
def encodeAll (entries : List StatusVariable) : List UInt8 :=
  entries.flatMap StatusVariable.encode

/-- The context that a list of variables carries. -/
def contextOf (entries : List StatusVariable) : QueryCharsetContext where
  charset := entries.findSome? StatusVariable.charset?
  databaseCollation := entries.findSome? StatusVariable.databaseCollation?
  characterSetCollations := entries.findSome? StatusVariable.collations?
  sqlMode := entries.findSome? StatusVariable.sqlMode?

/-- Nothing, or the terminal tag and anything. -/
def Padding (tail : List UInt8) : Prop := tail = [] ∨ ∃ junk, tail = 255 :: junk

/-! ## The readers of the parts -/

theorem take_implements (length : Nat) :
    Implements (take length) (Format.block length) where
  complete := by
    rintro cursor text rest value hin ⟨rfl, rfl⟩ hrest
    have hle : value.length ≤ cursor.rest.length := by
      rw [hrest, List.length_append]
      omega
    have hremaining : (Reader.remaining : ContextReader _) cursor = .ok (cursor.rest, cursor) :=
      if_pos hin
    rw [take, Reader.bind_of_ok hremaining, if_pos hle, hrest, List.take_left]
    rfl
  sound := by
    intro cursor value next hin hread
    have hremaining : (Reader.remaining : ContextReader _) cursor = .ok (cursor.rest, cursor) :=
      if_pos hin
    rw [take, Reader.bind_of_ok hremaining] at hread
    by_cases hle : length ≤ cursor.rest.length
    · rw [if_pos hle] at hread
      obtain ⟨rfl, rfl⟩ : cursor.rest.take length = value ∧ cursor.advance length = next := by
        simpa [Reader.bind_apply] using hread
      have hlength : (cursor.rest.take length).length = length := List.length_take_of_le hle
      exact ⟨_, ⟨hlength, rfl⟩, List.take_prefix _ _, by rw [hlength]⟩
    · rw [if_neg hle] at hread
      simp [Reader.bind_apply] at hread
  rejects := by
    intro cursor reason hin hread
    have hremaining : (Reader.remaining : ContextReader _) cursor = .ok (cursor.rest, cursor) :=
      if_pos hin
    rw [take, Reader.bind_of_ok hremaining] at hread
    by_cases hle : length ≤ cursor.rest.length
    · rw [if_pos hle] at hread
      simp [Reader.bind_apply] at hread
    · rw [if_neg hle] at hread
      exact ⟨_, by simpa [Reader.bind_apply] using hread.symm⟩

theorem byte_implements : Implements byte (fun text value => text = [value]) := by
  have hbind : Implements byte (Format.seq (Format.block 1)
      fun bytes text value => text = [] ∧ bytes = [value]) := by
    refine (take_implements 1).bind fun front bytes hbytes => ?_
    obtain ⟨hlength, rfl⟩ := hbytes
    obtain ⟨value, rfl⟩ := List.length_eq_one_iff.mp hlength
    exact (Implements.pure value).congr fun text other => by
      simp only [Format.nothing, List.cons.injEq, and_true, eq_comm]
  refine hbind.congr fun text value => ?_
  constructor
  · rintro ⟨_, _, _, rfl, ⟨-, rfl⟩, rfl, rfl⟩
    rfl
  · rintro rfl
    exact ⟨[value], [], [value], rfl, ⟨rfl, rfl⟩, rfl, rfl⟩

theorem u16_implements : Implements u16 (fun text value => text = encodeU16 value) := by
  refine (take_implements 2).bind_pure.congr fun text value => ?_
  constructor
  · rintro ⟨bytes, ⟨hlength, hbytes⟩, rfl⟩
    have hlt := fromLeBytes_lt text
    rw [hlength] at hlt
    rw [hbytes]
    have hnat : (UInt16.ofNat (fromLeBytes text)).toNat = fromLeBytes text := by
      rw [UInt16.toNat_ofNat']
      omega
    rw [encodeU16, hnat, ← hlength, toLeBytes_fromLeBytes]
  · rintro rfl
    have hlt : value.toNat < 256 ^ 2 := value.toNat_lt
    refine ⟨_, ⟨length_toLeBytes 2 _, rfl⟩, ?_⟩
    rw [encodeU16, fromLeBytes_toLeBytes hlt, UInt16.ofNat_toNat]

theorem skipString_implements : Implements skipString
    (fun text _ => ∃ name : List UInt8, name.length < 256 ∧ text = encodeString name) := by
  refine (byte_implements.bind fun _ length _ =>
    (take_implements length.toNat).bind_pure).congr fun text value => ?_
  constructor
  · rintro ⟨_, name, length, rfl, rfl, _, ⟨hlength, -⟩, -⟩
    refine ⟨name, hlength ▸ length.toNat_lt, ?_⟩
    rw [encodeString, hlength, UInt8.ofNat_toNat]
    rfl
  · rintro ⟨name, hlength, rfl⟩
    have hnat : (UInt8.ofNat name.length).toNat = name.length := by
      rw [UInt8.toNat_ofNat']
      omega
    exact ⟨_, name, _, rfl, rfl, name, ⟨hnat.symm, rfl⟩, rfl⟩

/-! ## The mapping -/

/-- The pairs in the order of their charsets, no charset twice. -/
def OrderedPairs (mapping : List (UInt16 × UInt16)) : Prop :=
  mapping.Pairwise fun left right => left.1 < right.1

theorem OrderedPairs.nodup {mapping : List (UInt16 × UInt16)} (h : OrderedPairs mapping) :
    (mapping.map Prod.fst).Nodup :=
  List.pairwise_map.mpr (h.imp fun hlt => UInt16.ne_of_lt hlt)

/-- The order of the pairs is determined by the pairs. -/
theorem OrderedPairs.eq_of_perm {mapping other : List (UInt16 × UInt16)} (h : OrderedPairs mapping)
    (h' : OrderedPairs other) (hperm : mapping.Perm other) : mapping = other :=
  hperm.eq_of_pairwise (fun _ _ _ _ hlt hlt' => absurd hlt' (UInt16.lt_asymm hlt)) h h'

theorem perm_sortedByCharset (mapping : List (UInt16 × UInt16)) :
    (sortedByCharset mapping).Perm mapping :=
  List.perm_insertionSort _ _

theorem orderedPairs_sortedByCharset {mapping : List (UInt16 × UInt16)}
    (h : (mapping.map Prod.fst).Nodup) : OrderedPairs (sortedByCharset mapping) := by
  have hle : (sortedByCharset mapping).Pairwise fun left right => left.1 ≤ right.1 := by
    have : Std.Total fun left right : UInt16 × UInt16 => left.1 ≤ right.1 :=
      ⟨fun left right => UInt16.le_total left.1 right.1⟩
    have : IsTrans (UInt16 × UInt16) fun left right => left.1 ≤ right.1 :=
      ⟨fun _ _ _ => UInt16.le_trans⟩
    exact List.pairwise_insertionSort _ mapping
  have hne : ((sortedByCharset mapping).map Prod.fst).Nodup :=
    ((perm_sortedByCharset mapping).map Prod.fst).nodup_iff.mpr h
  exact (hle.and (List.pairwise_map.mp hne)).imp fun ⟨hle, hne⟩ =>
    UInt16.lt_of_le_of_ne hle hne

/-- An ordered list of the pairs is the sorted mapping. -/
theorem eq_sortedByCharset_iff {out mapping : List (UInt16 × UInt16)} :
    OrderedPairs out ∧ out.Perm mapping ↔
      (mapping.map Prod.fst).Nodup ∧ out = sortedByCharset mapping := by
  constructor
  · rintro ⟨hordered, hperm⟩
    have hnodup := (hperm.map Prod.fst).nodup_iff.mp hordered.nodup
    exact ⟨hnodup, hordered.eq_of_perm (orderedPairs_sortedByCharset hnodup)
      (hperm.trans (perm_sortedByCharset mapping).symm)⟩
  · rintro ⟨hnodup, rfl⟩
    exact ⟨orderedPairs_sortedByCharset hnodup, perm_sortedByCharset mapping⟩

section Insertion

variable {pair : UInt16 × UInt16} {mapping : List (UInt16 × UInt16)}

/-- A pair of a new charset is put in its place. -/
theorem insertPair_of_notMem (hordered : OrderedPairs mapping) (h : pair.1 ∉ mapping.map Prod.fst) :
    (insertPair pair mapping).2 = false ∧ OrderedPairs (insertPair pair mapping).1 ∧
      (insertPair pair mapping).1.Perm (pair :: mapping) := by
  induction mapping with
  | nil => exact ⟨rfl, List.pairwise_singleton _ _, .refl _⟩
  | cons first mapping ih =>
    obtain ⟨hfirst, hrest⟩ := List.pairwise_cons.mp hordered
    obtain ⟨hne, hnotMem⟩ : pair.1 ≠ first.1 ∧ pair.1 ∉ mapping.map Prod.fst := by
      simpa only [List.map_cons, List.mem_cons, not_or] using h
    by_cases hlt : pair.1 < first.1
    · rw [insertPair, if_pos hlt]
      refine ⟨rfl, List.pairwise_cons.mpr ⟨?_, hordered⟩, .refl _⟩
      intro other hother
      rcases List.mem_cons.mp hother with rfl | hother
      · exact hlt
      · exact UInt16.lt_trans hlt (hfirst other hother)
    · obtain ⟨hnew, hinserted, hperm⟩ := ih hrest hnotMem
      rw [insertPair, if_neg hlt, if_neg hne]
      refine ⟨hnew, List.pairwise_cons.mpr ⟨?_, hinserted⟩,
        (hperm.cons first).trans (List.Perm.swap pair first mapping)⟩
      intro other hother
      rcases List.mem_cons.mp (hperm.mem_iff.mp hother) with rfl | hother
      · exact UInt16.lt_of_le_of_ne (UInt16.not_lt.mp hlt) hne.symm
      · exact hfirst other hother

/-- A pair of a charset that is there is noticed. -/
theorem insertPair_of_mem (hordered : OrderedPairs mapping) (h : pair.1 ∈ mapping.map Prod.fst) :
    (insertPair pair mapping).2 = true := by
  induction mapping with
  | nil => cases h
  | cons first mapping ih =>
    obtain ⟨hfirst, hrest⟩ := List.pairwise_cons.mp hordered
    rw [List.map_cons, List.mem_cons] at h
    have hle : first.1 ≤ pair.1 := by
      rcases h with heq | hmem
      · exact UInt16.le_of_eq heq.symm
      · obtain ⟨other, hother, heq⟩ := List.mem_map.mp hmem
        exact heq ▸ UInt16.le_of_lt (hfirst other hother)
    rw [insertPair, if_neg (UInt16.not_lt.mpr hle)]
    by_cases heq : pair.1 = first.1
    · rw [if_pos heq]
    · rw [if_neg heq]
      exact ih hrest (h.resolve_left heq)

end Insertion

theorem readEntries_implements (count : Nat) {mapping : List (UInt16 × UInt16)}
    (hordered : OrderedPairs mapping) :
    Implements (readEntries count mapping) (fun text out =>
      ∃ pairs : List (UInt16 × UInt16), pairs.length = count ∧ text = pairs.flatMap encodePair ∧
        OrderedPairs out ∧ out.Perm (pairs ++ mapping)) := by
  induction count generalizing mapping with
  | zero =>
    refine (Implements.pure mapping).congr fun text out => ?_
    constructor
    · rintro ⟨rfl, rfl⟩
      exact ⟨[], rfl, rfl, hordered, .refl _⟩
    · rintro ⟨pairs, hlength, rfl, hout, hperm⟩
      obtain rfl := List.length_eq_zero_iff.mp hlength
      exact ⟨rfl, hout.eq_of_perm hordered hperm⟩
  | succ count ih =>
    refine (u16_implements.bind fun _ source _ => u16_implements.bind (g := fun target text out =>
      source ∉ mapping.map Prod.fst ∧ ∃ pairs : List (UInt16 × UInt16), pairs.length = count ∧
        text = pairs.flatMap encodePair ∧ OrderedPairs out ∧
          out.Perm (pairs ++ (source, target) :: mapping)) fun _ target _ => ?_).congr
      fun text out => ?_
    · by_cases hmem : source ∈ mapping.map Prod.fst
      · have hold : (insertPair (source, target) mapping).2 = true := insertPair_of_mem hordered hmem
        rw [if_pos hold]
        exact (Implements.reject _).congr fun text out => ⟨False.elim, fun h => absurd hmem h.1⟩
      · have hpair : (source, target).1 ∉ mapping.map Prod.fst := hmem
        obtain ⟨hnew, hinserted, hperm⟩ := insertPair_of_notMem hordered hpair
        rw [if_neg (by rw [hnew]; exact Bool.false_ne_true)]
        refine (ih hinserted).congr fun text out => ?_
        simp only [hmem, not_false_eq_true, true_and]
        refine exists_congr fun pairs => ?_
        rw [List.Perm.congr_right (hperm.append_left pairs)]
    · constructor
      · rintro ⟨_, _, source, rfl, rfl, _, _, target, rfl, rfl, -, pairs, rfl, rfl, hout, hperm⟩
        refine ⟨(source, target) :: pairs, rfl, ?_, hout, hperm.trans List.perm_middle⟩
        rw [List.flatMap_cons, encodePair, List.append_assoc]
      · rintro ⟨pairs, hlength, rfl, hout, hperm⟩
        cases pairs with
        | nil => cases hlength
        | cons pair pairs =>
          have hnodup := ((hperm.map Prod.fst).nodup_iff.mp hout.nodup)
          rw [List.cons_append, List.map_cons, List.nodup_cons, List.map_append, List.mem_append]
            at hnodup
          refine ⟨_, _, pair.1, ?_, rfl, encodeU16 pair.2, pairs.flatMap encodePair, pair.2, rfl,
            rfl, fun hmem => hnodup.1 (.inr hmem), pairs, Nat.succ.inj hlength, rfl, hout,
            hperm.trans List.perm_middle.symm⟩
          rw [List.flatMap_cons, encodePair, List.append_assoc]

theorem length_flatMap_encodePair (pairs : List (UInt16 × UInt16)) :
    (pairs.flatMap encodePair).length = pairs.length * 4 := by
  induction pairs with
  | nil => rfl
  | cons pair pairs ih =>
    rw [List.flatMap_cons, List.length_append, ih, List.length_cons]
    simp only [encodePair, encodeU16, List.length_append, length_toLeBytes]
    omega

theorem readMapping_implements : Implements readMapping (fun text out =>
    ∃ pairs : List (UInt16 × UInt16), pairs.length < 256 ∧ (pairs.map Prod.fst).Nodup ∧
      text = UInt8.ofNat pairs.length :: pairs.flatMap encodePair ∧ out = sortedByCharset pairs) := by
  refine (byte_implements.bind fun _ count _ => (take_implements (count.toNat * 4)).bind
    (g := fun entries text out => text = [] ∧ ∃ pairs : List (UInt16 × UInt16),
      pairs.length = count.toNat ∧ entries = pairs.flatMap encodePair ∧ OrderedPairs out ∧
        out.Perm (pairs ++ [])) fun entries bytes hentries => ?_).congr fun text out => ?_
  · obtain ⟨hlength, rfl⟩ := hentries
    refine Implements.within (readEntries_implements count.toNat .nil) fun text out => ?_
    rintro ⟨pairs, hpairs, rfl, -⟩
    rw [length_flatMap_encodePair, hpairs, hlength]
  · constructor
    · rintro ⟨_, _, count, rfl, rfl, _, _, entries, rfl, ⟨hlength, rfl⟩, rfl, pairs, hpairs, rfl,
        hout, hperm⟩
      rw [List.append_nil] at hperm
      obtain ⟨hnodup, rfl⟩ := eq_sortedByCharset_iff.mp ⟨hout, hperm⟩
      refine ⟨pairs, hpairs ▸ count.toNat_lt, hnodup, ?_, rfl⟩
      rw [hpairs, UInt8.ofNat_toNat, List.append_nil]
      rfl
    · rintro ⟨pairs, hlength, hnodup, rfl, rfl⟩
      obtain ⟨hout, hperm⟩ := eq_sortedByCharset_iff.mpr ⟨hnodup, rfl⟩
      have hnat : (UInt8.ofNat pairs.length).toNat = pairs.length := by
        rw [UInt8.toNat_ofNat']
        omega
      refine ⟨_, pairs.flatMap encodePair, _, rfl, rfl, _, [], _, (List.append_nil _).symm, ⟨?_, rfl⟩,
        rfl, pairs, hnat.symm, rfl, hout, ?_⟩
      · rw [hnat, length_flatMap_encodePair]
      · rwa [List.append_nil]

end BinlogCdc.QueryCharset
