import BinlogCdc.Stream.StatusVariables

/-!
# Sections of status variables

The loop of the decoder reads the variables one after the other, in any order, up to the end of the
section or its terminal tag. What it accepts is exactly what the server writes, and what it returns
is exactly what the variables say.
-/

namespace BinlogCdc.QueryCharset

open Core

/-! ## One variable -/

/-- The payloads of the variables of a tag. -/
def Layout (tag : UInt8) : Format Unit := fun text _ =>
  ∃ v : StatusVariable, v.WellFormed ∧ v.tag = tag ∧ text = v.payload

/-- A tag of a fixed width is skipped by its width. -/
theorem skip_fixed {tag : UInt8} {width : Nat} (h : fixedWidth tag = some width) :
    Implements (take width >>= fun _ => pure ()) (Layout tag) := by
  refine (take_implements width).bind_pure.congr fun text _ => ?_
  constructor
  · rintro ⟨_, ⟨hlength, -⟩, -⟩
    exact ⟨.fixed tag text, by rwa [← hlength] at h, rfl, rfl⟩
  · rintro ⟨v, hv, htag, rfl⟩
    refine ⟨_, ⟨?_, rfl⟩, rfl⟩
    rw [← htag] at h
    cases v with
    | fixed tag bytes => exact Option.some.inj (hv.symm.trans h)
    | name tag text => rcases hv.1 with rfl | rfl <;> cases h
    | _ => cases h

theorem skip_name {tag : UInt8} (h : tag = 5 ∨ tag = 6) : Implements skipString (Layout tag) := by
  refine skipString_implements.congr fun text _ => ?_
  constructor
  · rintro ⟨text, hlength, rfl⟩
    exact ⟨.name tag text, ⟨h, hlength⟩, rfl, rfl⟩
  · rintro ⟨v, hv, rfl, rfl⟩
    cases v with
    | name tag text => exact ⟨text, hv.2, rfl⟩
    | fixed tag bytes =>
      have hwidth : fixedWidth tag = some bytes.length := hv
      rcases h with h | h <;> (obtain rfl : tag = _ := h; cases hwidth)
    | _ => rcases h with h | h <;> cases h

/-- The terminator of a catalog is checked where it stands. -/
theorem skip_catalog : Implements (do
    skipString
    let cursor ← Reader.cursor
    let terminator ← byte
    if terminator ≠ 0 then Reader.reject (.invalidCatalogTerminator cursor.offset) else pure ())
    (Layout 2) := by
  refine (skipString_implements.bind (g := fun _ text _ => text = [0]) fun _ _ _ =>
    Implements.of_cursor fun cursor => ?_).congr fun text _ => ?_
  · refine (byte_implements.bind (g := fun terminator text _ => terminator = 0 ∧ text = [])
      fun _ terminator _ => ?_).congr fun text _ => ?_
    · by_cases hzero : terminator = 0
      · rw [if_neg (not_not_intro hzero)]
        exact (Implements.pure ()).congr fun text _ => ⟨fun h => ⟨hzero, h.1⟩, fun h => ⟨h.2, rfl⟩⟩
      · rw [if_pos hzero]
        exact (Implements.reject _).congr fun text _ => ⟨False.elim, fun h => hzero h.1⟩
    · constructor
      · rintro ⟨_, _, _, rfl, rfl, rfl, rfl⟩
        rfl
      · rintro rfl
        exact ⟨[0], [], 0, rfl, rfl, rfl, rfl⟩
  · constructor
    · rintro ⟨_, _, _, rfl, ⟨text, hlength, rfl⟩, rfl⟩
      exact ⟨.catalog text, hlength, rfl, rfl⟩
    · rintro ⟨v, hv, htag, rfl⟩
      cases v with
      | catalog text => exact ⟨_, [0], (), rfl, ⟨text, hv, rfl⟩, rfl⟩
      | fixed tag bytes =>
        cases htag
        cases hv
      | name tag text =>
        cases htag
        rcases hv.1 with h | h <;> cases h
      | _ => cases htag

theorem skip_invoker : Implements (do
    skipString
    skipString) (Layout 11) := by
  refine (skipString_implements.bind fun _ _ _ => skipString_implements).congr fun text _ => ?_
  constructor
  · rintro ⟨_, _, _, rfl, ⟨user, huser, rfl⟩, host, hhost, rfl⟩
    exact ⟨.invoker user host, ⟨huser, hhost⟩, rfl, rfl⟩
  · rintro ⟨v, hv, htag, rfl⟩
    cases v with
    | invoker user host => exact ⟨_, _, (), rfl, ⟨user, hv.1, rfl⟩, host, hv.2, rfl⟩
    | fixed tag bytes =>
      cases htag
      cases hv
    | name tag text =>
      cases htag
      rcases hv.1 with h | h <;> cases h
    | _ => cases htag

/-- The sequence number is there if one of its two flags is. -/
theorem skip_alterFlags : Implements (do
    let flags ← byte
    if flags &&& (4 ||| 8) ≠ 0 then
      let _ ← take 8
      pure ()
    else pure ()) (Layout 130) := by
  refine (byte_implements.bind (g := fun flags text _ =>
    text.length = if flags &&& 12 = 0 then 0 else 8) fun _ flags _ => ?_).congr fun text _ => ?_
  · by_cases hzero : flags &&& 12 = 0
    · have hnot : ¬flags &&& (4 ||| 8) ≠ 0 := not_not_intro hzero
      rw [if_neg hnot, if_pos hzero]
      exact (Implements.pure ()).congr fun text _ =>
        ⟨fun h => List.length_eq_zero_iff.mpr h.1, fun h => ⟨List.length_eq_zero_iff.mp h, rfl⟩⟩
    · have hset : flags &&& (4 ||| 8) ≠ 0 := hzero
      rw [if_pos hset, if_neg hzero]
      exact (take_implements 8).bind_pure.congr fun text _ =>
        ⟨fun ⟨_, h, _⟩ => h.1, fun h => ⟨text, ⟨h, rfl⟩, rfl⟩⟩
  · constructor
    · rintro ⟨_, sequence, flags, rfl, rfl, hlength⟩
      exact ⟨.alterFlags flags sequence, hlength, rfl, rfl⟩
    · rintro ⟨v, hv, htag, rfl⟩
      cases v with
      | alterFlags flags sequence => exact ⟨[flags], sequence, flags, rfl, rfl, hv⟩
      | fixed tag bytes =>
        cases htag
        cases hv
      | name tag text =>
        cases htag
        rcases hv.1 with h | h <;> cases h
      | _ => cases htag

theorem mem_knownTags {tag : UInt8} :
    tag ∈ knownTags ↔ tag.toNat ≤ 11 ∨ 128 ≤ tag.toNat ∧ tag.toNat ≤ 131 := by
  simp only [knownTags, List.mem_cons, List.not_mem_nil, or_false, ← UInt8.toNat_inj]
  simp only [UInt8.reduceToNat]
  omega

/-- Other tags are rejected. -/
theorem skipKnownVariable_of_unknown {tag : UInt8} (offset : Nat) (h : tag ∉ knownTags) :
    skipKnownVariable tag offset = Reader.reject (.unknownTag tag offset) := by
  unfold skipKnownVariable
  split
  all_goals first | rfl | exact absurd (mem_knownTags.mpr (by omega)) h

/-- The layouts of the variables that are skipped. -/
theorem skipKnownVariable_implements {tag : UInt8} (offset : Nat)
    (hkept : tag ≠ 1 ∧ tag ≠ 4 ∧ tag ≠ 8 ∧ tag ≠ 131) :
    Implements (skipKnownVariable tag offset) (Layout tag) := by
  by_cases hknown : tag ∈ knownTags
  · simp only [knownTags, List.mem_cons, List.not_mem_nil, or_false, hkept, false_or] at hknown
    rcases hknown with rfl | rfl | rfl | rfl | rfl | rfl | rfl | rfl | rfl | rfl | rfl | rfl
    · exact @skip_fixed 0 4 rfl
    · exact skip_catalog
    · exact @skip_fixed 3 4 rfl
    · exact skip_name (.inl rfl)
    · exact skip_name (.inr rfl)
    · exact @skip_fixed 7 2 rfl
    · exact @skip_fixed 9 8 rfl
    · exact @skip_fixed 10 4 rfl
    · exact skip_invoker
    · exact @skip_fixed 128 3 rfl
    · exact @skip_fixed 129 8 rfl
    · exact skip_alterFlags
  · rw [skipKnownVariable_of_unknown offset hknown]
    refine (Implements.reject _).congr fun text _ => ?_
    constructor
    · exact False.elim
    · rintro ⟨v, hv, htag, -⟩
      exact hknown (htag ▸ StatusVariable.tag_mem_knownTags hv)

/-- The payloads of the variables of a tag, and the context with what they say. -/
def Recorded (tag : UInt8) (context : QueryCharsetContext) : Format QueryCharsetContext :=
  fun text out => ∃ v : StatusVariable,
    v.WellFormed ∧ v.tag = tag ∧ text = v.payload ∧ out = v.record context

section Kept

variable {v : StatusVariable}

theorem eq_sqlMode (hv : v.WellFormed) (h : v.tag = 1) : ∃ mode, v = .sqlMode mode := by
  cases v with
  | sqlMode mode => exact ⟨mode, rfl⟩
  | fixed tag bytes =>
    cases h
    cases hv
  | name tag text =>
    cases h
    rcases hv.1 with h | h <;> cases h
  | _ => cases h

theorem eq_charset (hv : v.WellFormed) (h : v.tag = 4) : ∃ ids, v = .charset ids := by
  cases v with
  | charset ids => exact ⟨ids, rfl⟩
  | fixed tag bytes =>
    cases h
    cases hv
  | name tag text =>
    cases h
    rcases hv.1 with h | h <;> cases h
  | _ => cases h

theorem eq_databaseCollation (hv : v.WellFormed) (h : v.tag = 8) :
    ∃ id, v = .databaseCollation id := by
  cases v with
  | databaseCollation id => exact ⟨id, rfl⟩
  | fixed tag bytes =>
    cases h
    cases hv
  | name tag text =>
    cases h
    rcases hv.1 with h | h <;> cases h
  | _ => cases h

theorem eq_collations (hv : v.WellFormed) (h : v.tag = 131) : ∃ mapping, v = .collations mapping := by
  cases v with
  | collations mapping => exact ⟨mapping, rfl⟩
  | fixed tag bytes =>
    cases h
    cases hv
  | name tag text =>
    cases h
    rcases hv.1 with h | h <;> cases h
  | _ => cases h

/-- A variable of another tag says nothing. -/
theorem record_eq_self {context : QueryCharsetContext}
    (h : v.tag ≠ 1 ∧ v.tag ≠ 4 ∧ v.tag ≠ 8 ∧ v.tag ≠ 131) : v.record context = context := by
  cases v with
  | sqlMode => exact absurd rfl h.1
  | charset => exact absurd rfl h.2.1
  | databaseCollation => exact absurd rfl h.2.2.1
  | collations => exact absurd rfl h.2.2.2
  | _ => rfl

end Kept

section Decoding

variable (context : QueryCharsetContext)

theorem decode_sqlMode : Implements (take 8 >>= fun bytes =>
    pure { context with sqlMode := some (UInt64.ofNat (fromLeBytes bytes)) }) (Recorded 1 context) := by
  refine (take_implements 8).bind_pure.congr fun text out => ?_
  constructor
  · rintro ⟨bytes, ⟨hlength, hbytes⟩, rfl⟩
    refine ⟨.sqlMode (UInt64.ofNat (fromLeBytes bytes)), trivial, rfl, ?_, rfl⟩
    have hlt := fromLeBytes_lt text
    rw [hlength] at hlt
    have hnat : (UInt64.ofNat (fromLeBytes text)).toNat = fromLeBytes text := by
      rw [UInt64.toNat_ofNat']
      omega
    rw [hbytes, StatusVariable.payload, hnat, ← hlength, toLeBytes_fromLeBytes]
  · rintro ⟨v, hv, htag, rfl, rfl⟩
    obtain ⟨mode, rfl⟩ := eq_sqlMode hv htag
    have hlt : mode.toNat < 256 ^ 8 := mode.toNat_lt
    refine ⟨_, ⟨length_toLeBytes 8 _, rfl⟩, ?_⟩
    rw [StatusVariable.payload, fromLeBytes_toLeBytes hlt, UInt64.ofNat_toNat]
    rfl

theorem decode_charset : Implements (do
    let client ← u16
    let connection ← u16
    let server ← u16
    pure { context with charset := some { client, connection, server } }) (Recorded 4 context) := by
  refine (u16_implements.bind fun _ client _ => u16_implements.bind fun _ connection _ =>
    u16_implements.bind_pure).congr fun text out => ?_
  constructor
  · rintro ⟨_, _, client, rfl, rfl, _, _, connection, rfl, rfl, server, rfl, rfl⟩
    exact ⟨.charset { client, connection, server }, trivial, rfl, (List.append_assoc _ _ _).symm, rfl⟩
  · rintro ⟨v, hv, htag, rfl, rfl⟩
    obtain ⟨ids, rfl⟩ := eq_charset hv htag
    exact ⟨_, _, ids.client, List.append_assoc _ _ _, rfl, _, _, ids.connection, rfl, rfl,
      ids.server, rfl, rfl⟩

theorem decode_databaseCollation : Implements (u16 >>= fun collation =>
    pure { context with databaseCollation := some collation }) (Recorded 8 context) := by
  refine u16_implements.bind_pure.congr fun text out => ?_
  constructor
  · rintro ⟨collation, rfl, rfl⟩
    exact ⟨.databaseCollation collation, trivial, rfl, rfl, rfl⟩
  · rintro ⟨v, hv, htag, rfl, rfl⟩
    obtain ⟨collation, rfl⟩ := eq_databaseCollation hv htag
    exact ⟨collation, rfl, rfl⟩

theorem decode_collations : Implements (readMapping >>= fun mapping =>
    pure { context with characterSetCollations := some mapping }) (Recorded 131 context) := by
  refine readMapping_implements.bind_pure.congr fun text out => ?_
  constructor
  · rintro ⟨_, ⟨pairs, hlength, hnodup, rfl, rfl⟩, rfl⟩
    exact ⟨.collations pairs, ⟨hlength, hnodup⟩, rfl, rfl, rfl⟩
  · rintro ⟨v, hv, htag, rfl, rfl⟩
    obtain ⟨pairs, rfl⟩ := eq_collations hv htag
    exact ⟨_, ⟨pairs, hv.1, hv.2, rfl, rfl⟩, rfl⟩

theorem decode_skipped {tag : UInt8} (offset : Nat)
    (hkept : tag ≠ 1 ∧ tag ≠ 4 ∧ tag ≠ 8 ∧ tag ≠ 131) :
    Implements (skipKnownVariable tag offset >>= fun _ => pure context) (Recorded tag context) := by
  refine (skipKnownVariable_implements offset hkept).bind_pure.congr fun text out => ?_
  constructor
  · rintro ⟨-, ⟨v, hv, rfl, rfl⟩, rfl⟩
    exact ⟨v, hv, rfl, rfl, (record_eq_self hkept).symm⟩
  · rintro ⟨v, hv, rfl, rfl, rfl⟩
    exact ⟨(), ⟨v, hv, rfl, rfl⟩, record_eq_self hkept⟩

theorem decodeVariable_of_skipped {tag : UInt8} (offset : Nat)
    (hkept : tag ≠ 1 ∧ tag ≠ 4 ∧ tag ≠ 8 ∧ tag ≠ 131) :
    decodeVariable tag offset context =
      skipKnownVariable tag offset >>= fun _ => pure context := by
  obtain ⟨hmode, hcharset, hcollation, hcollations⟩ := hkept
  simp only [ne_eq, ← UInt8.toNat_inj, UInt8.reduceToNat] at hmode hcharset hcollation hcollations
  unfold decodeVariable
  split
  all_goals first | contradiction | rfl

/-- The layouts of the variables, and what they say. -/
theorem decodeVariable_implements (tag : UInt8) (offset : Nat) :
    Implements (decodeVariable tag offset context) (Recorded tag context) := by
  by_cases hmode : tag = 1
  · rw [hmode]
    exact decode_sqlMode context
  by_cases hcharset : tag = 4
  · rw [hcharset]
    exact decode_charset context
  by_cases hcollation : tag = 8
  · rw [hcollation]
    exact decode_databaseCollation context
  by_cases hcollations : tag = 131
  · rw [hcollations]
    exact decode_collations context
  rw [decodeVariable_of_skipped context offset ⟨hmode, hcharset, hcollation, hcollations⟩]
  exact decode_skipped context offset ⟨hmode, hcharset, hcollation, hcollations⟩

end Decoding

/-! ## The context of distinct variables -/

section Context

variable {v : StatusVariable} {entries : List StatusVariable}

theorem sqlMode?_eq_none (h : v.tag ≠ 1) : v.sqlMode? = none := by
  cases v with
  | sqlMode => exact absurd rfl h
  | _ => rfl

theorem charset?_eq_none (h : v.tag ≠ 4) : v.charset? = none := by
  cases v with
  | charset => exact absurd rfl h
  | _ => rfl

theorem databaseCollation?_eq_none (h : v.tag ≠ 8) : v.databaseCollation? = none := by
  cases v with
  | databaseCollation => exact absurd rfl h
  | _ => rfl

theorem collations?_eq_none (h : v.tag ≠ 131) : v.collations? = none := by
  cases v with
  | collations => exact absurd rfl h
  | _ => rfl

/-- What is read off one tag is absent if the tag is. -/
theorem findSome?_eq_none {α : Type} {f : StatusVariable → Option α} {tag : UInt8}
    (hf : ∀ w : StatusVariable, w.tag ≠ tag → f w = none)
    (h : tag ∉ entries.map StatusVariable.tag) : entries.findSome? f = none :=
  List.findSome?_eq_none_iff.mpr fun w hw => hf w fun heq => h (heq ▸ List.mem_map_of_mem hw)

/-- A variable of a new tag adds to the context. -/
theorem contextOf_concat (hfresh : v.tag ∉ entries.map StatusVariable.tag) :
    contextOf (entries ++ [v]) = v.record (contextOf entries) := by
  cases v with
  | sqlMode mode =>
    have hnone := findSome?_eq_none (fun _ => sqlMode?_eq_none) hfresh
    simp [contextOf, StatusVariable.record, hnone, StatusVariable.sqlMode?, StatusVariable.charset?,
      StatusVariable.databaseCollation?, StatusVariable.collations?]
  | charset ids =>
    have hnone := findSome?_eq_none (fun _ => charset?_eq_none) hfresh
    simp [contextOf, StatusVariable.record, hnone, StatusVariable.sqlMode?, StatusVariable.charset?,
      StatusVariable.databaseCollation?, StatusVariable.collations?]
  | databaseCollation id =>
    have hnone := findSome?_eq_none (fun _ => databaseCollation?_eq_none) hfresh
    simp [contextOf, StatusVariable.record, hnone, StatusVariable.sqlMode?, StatusVariable.charset?,
      StatusVariable.databaseCollation?, StatusVariable.collations?]
  | collations mapping =>
    have hnone := findSome?_eq_none (fun _ => collations?_eq_none) hfresh
    simp [contextOf, StatusVariable.record, hnone, StatusVariable.sqlMode?, StatusVariable.charset?,
      StatusVariable.databaseCollation?, StatusVariable.collations?]
  | _ =>
    simp [contextOf, StatusVariable.record, StatusVariable.sqlMode?, StatusVariable.charset?,
      StatusVariable.databaseCollation?, StatusVariable.collations?]

/-- Recorded one after the other, variables with distinct tags leave their context. -/
theorem foldl_record (h : (entries.map StatusVariable.tag).Nodup) :
    entries.foldl StatusVariable.record .default = contextOf entries := by
  induction entries using List.reverseRecOn with
  | nil => rfl
  | append_singleton entries v ih =>
    rw [List.map_append, List.nodup_append] at h
    obtain ⟨hentries, -, hdisjoint⟩ := h
    have hfresh : v.tag ∉ entries.map StatusVariable.tag := fun hmem =>
      hdisjoint _ hmem _ (List.mem_singleton.mpr rfl) rfl
    rw [List.foldl_append, ih hentries, contextOf_concat hfresh]
    rfl

end Context

/-! ## The loop -/

section Loop

variable {fuel : Nat} {seen : UInt8 → Bool} {context : QueryCharsetContext} {cursor : Cursor}
  {tag : UInt8} {back : List UInt8}

theorem decodeVariables_nil (h : cursor.rest = []) :
    decodeVariables (fuel + 1) seen context cursor = .ok (context, cursor) := by
  have hend : ¬cursor.offset < cursor.bytes.length := by
    have hlength := cursor.length_rest
    rw [h, List.length_nil] at hlength
    omega
  rw [decodeVariables, Reader.bind_of_ok (Reader.cursor_apply cursor), if_neg hend]
  rfl

/-- One round of the loop. -/
theorem decodeVariables_cons (hin : cursor.InBounds) (h : cursor.rest = tag :: back) :
    decodeVariables (fuel + 1) seen context cursor =
      if seen tag then .error (.rejected (.duplicateTag tag cursor.offset))
      else if tag = 255 then .ok (context, cursor.advance 1)
      else (decodeVariable tag cursor.offset context >>= fun context =>
        decodeVariables fuel (Function.update seen tag true) context) (cursor.advance 1) := by
  have hmore : cursor.offset < cursor.bytes.length := by
    have hlength := cursor.length_rest
    rw [h, List.length_cons] at hlength
    omega
  have hbyte := byte_implements.complete cursor [tag] back tag hin rfl h
  rw [decodeVariables, Reader.bind_of_ok (Reader.cursor_apply cursor), if_pos hmore,
    Reader.bind_of_ok hbyte]
  by_cases hseen : seen tag = true
  · rw [if_pos hseen, if_pos hseen]
    rfl
  · rw [if_neg hseen, if_neg hseen]
    by_cases hend : tag = 255
    · rw [if_pos hend, if_pos hend]
      rfl
    · rw [if_neg hend, if_neg hend]
      rfl

/-- The tags that were seen after some variables. -/
def seenAfter (seen : UInt8 → Bool) (entries : List StatusVariable) : UInt8 → Bool := fun tag =>
  seen tag || decide (tag ∈ entries.map StatusVariable.tag)

theorem seenAfter_cons (v : StatusVariable) (entries : List StatusVariable) :
    seenAfter (Function.update seen v.tag true) entries = seenAfter seen (v :: entries) := by
  funext tag
  by_cases h : tag = v.tag
  · simp [seenAfter, h]
  · simp [seenAfter, h]

theorem tag_ne_end {v : StatusVariable} (h : v.WellFormed) : v.tag ≠ 255 := fun heq =>
  absurd (heq ▸ StatusVariable.tag_mem_knownTags h) (by decide)

/-- The loop reads well-formed variables with new tags one after the other. -/
theorem decodeVariables_append {entries : List StatusVariable} {rest : List UInt8}
    (hin : cursor.InBounds) (hrest : cursor.rest = encodeAll entries ++ rest)
    (hall : ∀ v ∈ entries, v.WellFormed) (hdistinct : (entries.map StatusVariable.tag).Nodup)
    (hfresh : ∀ v ∈ entries, seen v.tag = false) :
    decodeVariables (fuel + entries.length) seen context cursor =
      decodeVariables fuel (seenAfter seen entries) (entries.foldl StatusVariable.record context)
        (cursor.advance (encodeAll entries).length) := by
  induction entries generalizing seen context cursor with
  | nil =>
    have hseen : seenAfter seen [] = seen := by
      funext tag
      simp [seenAfter]
    rw [hseen]
    rfl
  | cons v entries ih =>
    have htext : cursor.rest = v.tag :: (v.payload ++ (encodeAll entries ++ rest)) := by
      rw [hrest, encodeAll, List.flatMap_cons, StatusVariable.encode, List.append_assoc]
      rfl
    obtain ⟨hv, hentries⟩ := List.forall_mem_cons.mp hall
    obtain ⟨hnew, hdistinct⟩ := List.nodup_cons.mp hdistinct
    obtain ⟨hseen, hfresh⟩ := List.forall_mem_cons.mp hfresh
    obtain ⟨hin', hrest'⟩ := hin.advance_cons htext
    have hread := (decodeVariable_implements context v.tag cursor.offset).complete _ _ _ _ hin'
      ⟨v, hv, rfl, rfl, rfl⟩ hrest'
    have hlength : (encodeAll (v :: entries)).length =
        1 + v.payload.length + (encodeAll entries).length := by
      rw [encodeAll, List.flatMap_cons, List.length_append, StatusVariable.encode, List.length_cons,
        Nat.add_comm v.payload.length]
      rfl
    rw [List.length_cons, ← Nat.add_assoc, decodeVariables_cons hin htext, if_neg (by simp [hseen]),
      if_neg (tag_ne_end hv), Reader.bind_of_ok hread, ih (hin'.advance ⟨_, hrest'.symm⟩)
        (Cursor.rest_advance_of_eq hrest') hentries hdistinct, seenAfter_cons, List.foldl_cons,
      hlength, Cursor.advance_advance, Cursor.advance_advance]
    · congr 2
      omega
    · intro w hw
      have hne : w.tag ≠ v.tag := fun heq => hnew (heq ▸ List.mem_map_of_mem hw)
      rw [Function.update_of_ne hne]
      exact hfresh w hw

/-- What the loop accepts. -/
theorem decodeVariables_sound {out : QueryCharsetContext} {after : Cursor} (hin : cursor.InBounds)
    (h : decodeVariables fuel seen context cursor = .ok (out, after)) :
    ∃ entries tail, cursor.rest = encodeAll entries ++ tail ∧ Padding tail ∧
      (∀ v ∈ entries, v.WellFormed) ∧ (entries.map StatusVariable.tag).Nodup ∧
        (∀ v ∈ entries, seen v.tag = false) ∧ out = entries.foldl StatusVariable.record context := by
  induction fuel generalizing seen context cursor with
  | zero => cases h
  | succ fuel ih =>
    cases hrest : cursor.rest with
    | nil =>
      rw [decodeVariables_nil hrest] at h
      obtain ⟨rfl, -⟩ : context = out ∧ cursor = after := by
        simpa using h
      exact ⟨[], [], rfl, .inl rfl, by simp, .nil, by simp, rfl⟩
    | cons tag back =>
      rw [decodeVariables_cons hin hrest] at h
      by_cases hseen : seen tag = true
      · rw [if_pos hseen] at h
        cases h
      rw [if_neg hseen] at h
      by_cases hend : tag = 255
      · rw [if_pos hend] at h
        obtain ⟨rfl, -⟩ : context = out ∧ cursor.advance 1 = after := by
          simpa using h
        exact ⟨[], tag :: back, rfl, .inr ⟨back, by rw [hend]⟩, by simp, .nil, by simp, rfl⟩
      rw [if_neg hend, Reader.bind_apply] at h
      obtain ⟨⟨mid, at'⟩, hread, h⟩ := bind_eq_ok.mp h
      obtain ⟨hin', hrest'⟩ := hin.advance_cons hrest
      obtain ⟨_, ⟨v, hv, rfl, rfl, rfl⟩, hbegins, rfl⟩ :=
        (decodeVariable_implements context tag cursor.offset).sound _ _ _ hin' hread
      obtain ⟨entries, tail, htext, htail, hentries, hdistinct, hfresh, rfl⟩ :=
        ih (hin'.advance hbegins) h
      have hnew : v.tag ∉ entries.map StatusVariable.tag := by
        intro hmem
        obtain ⟨w, hw, heq⟩ := List.mem_map.mp hmem
        have hupdated := hfresh w hw
        rw [heq, Function.update_self] at hupdated
        cases hupdated
      refine ⟨v :: entries, tail, ?_, htail, List.forall_mem_cons.mpr ⟨hv, hentries⟩,
        List.nodup_cons.mpr ⟨hnew, hdistinct⟩, List.forall_mem_cons.mpr ⟨by simpa using hseen, ?_⟩, rfl⟩
      · obtain ⟨left, hleft⟩ := hbegins
        have heq : left = encodeAll entries ++ tail := by
          rw [← htext, Cursor.rest_advance_of_eq hleft.symm]
        rw [encodeAll, List.flatMap_cons, List.append_assoc, StatusVariable.encode, List.cons_append]
        rw [heq, hrest'] at hleft
        rw [← hleft]
        rfl
      · intro w hw
        have hne : w.tag ≠ v.tag := fun heq => hnew (heq ▸ List.mem_map_of_mem hw)
        have hupdated := hfresh w hw
        rwa [Function.update_of_ne hne] at hupdated

/-- With a round for each byte and one more, the loop ends in a context or a rejection. -/
theorem decodeVariables_rejects {reason : Halt DecodeError} (hin : cursor.InBounds)
    (hfuel : cursor.rest.length < fuel)
    (h : decodeVariables fuel seen context cursor = .error reason) :
    ∃ error, reason = .rejected error := by
  induction fuel generalizing seen context cursor with
  | zero => omega
  | succ fuel ih =>
    cases hrest : cursor.rest with
    | nil =>
      rw [decodeVariables_nil hrest] at h
      cases h
    | cons tag back =>
      rw [decodeVariables_cons hin hrest] at h
      by_cases hseen : seen tag = true
      · rw [if_pos hseen] at h
        exact ⟨_, (Except.error.inj h).symm⟩
      rw [if_neg hseen] at h
      by_cases hend : tag = 255
      · rw [if_pos hend] at h
        cases h
      rw [if_neg hend] at h
      obtain ⟨hin', hrest'⟩ := hin.advance_cons hrest
      cases hread : decodeVariable tag cursor.offset context (cursor.advance 1) with
      | error stopped =>
        rw [Reader.bind_of_error hread] at h
        obtain rfl := Except.error.inj h
        exact (decodeVariable_implements context tag cursor.offset).rejects _ _ hin' hread
      | ok result =>
        obtain ⟨mid, at'⟩ := result
        rw [Reader.bind_of_ok hread] at h
        obtain ⟨text, -, hbegins, rfl⟩ :=
          (decodeVariable_implements context tag cursor.offset).sound _ _ _ hin' hread
        apply ih (hin'.advance hbegins) _ h
        rw [Cursor.rest_advance, hrest', List.length_drop]
        rw [hrest, List.length_cons] at hfuel
        omega

end Loop

/-! ## Sections -/

/-- Variables of a section that the server can write. -/
structure WellFormedSection (entries : List StatusVariable) : Prop where
  each : ∀ v ∈ entries, v.WellFormed
  distinct : (entries.map StatusVariable.tag).Nodup

section Sections

variable {entries : List StatusVariable}

theorem length_le_length_encodeAll (entries : List StatusVariable) :
    entries.length ≤ (encodeAll entries).length := by
  induction entries with
  | nil => exact Nat.le_refl 0
  | cons v entries ih =>
    rw [encodeAll, List.flatMap_cons, List.length_append, List.length_cons, StatusVariable.encode,
      List.length_cons]
    change entries.length + 1 ≤ v.payload.length + 1 + (encodeAll entries).length
    omega

/-- The decoder comes to the end of the variables it can read. -/
theorem decode_append (h : WellFormedSection entries) (rest : List UInt8) :
    ∃ fuel cursor, cursor.InBounds ∧ cursor.rest = rest ∧
      cursor.offset = (encodeAll entries).length ∧ rest.length ≤ fuel ∧
      decodeQueryCharsetContext (encodeAll entries ++ rest) =
        (decodeVariables (fuel + 1) (seenAfter (fun _ => false) entries) (contextOf entries)
          cursor).map fun result => result.1 := by
  have hlength := length_le_length_encodeAll entries
  have hin : (Cursor.mk (encodeAll entries ++ rest) 0).InBounds := Nat.zero_le _
  have hrest : (Cursor.mk (encodeAll entries ++ rest) 0).rest = encodeAll entries ++ rest := rfl
  have hfuel : (encodeAll entries ++ rest).length + 1 =
      (encodeAll entries).length - entries.length + rest.length + 1 + entries.length := by
    rw [List.length_append]
    omega
  have hread := fun fuel => @decodeVariables_append fuel (fun _ => false) .default _ entries rest
    hin hrest h.each h.distinct fun _ _ => rfl
  refine ⟨(encodeAll entries).length - entries.length + rest.length, _,
    hin.advance ⟨rest, hrest.symm⟩, Cursor.rest_advance_of_eq hrest, Nat.zero_add _,
    Nat.le_add_left _ _, ?_⟩
  rw [decodeQueryCharsetContext, hfuel, hread, foldl_record h.distinct]

theorem seenAfter_eq_true {tag : UInt8} :
    seenAfter (fun _ => false) entries tag = true ↔ tag ∈ entries.map StatusVariable.tag := by
  simp only [seenAfter, Bool.false_or, decide_eq_true_eq]

/-- A section that ends, or is padded, is read. -/
theorem decode_section (h : WellFormedSection entries) {tail : List UInt8} (htail : Padding tail) :
    decodeQueryCharsetContext (encodeAll entries ++ tail) = .ok (contextOf entries) := by
  obtain ⟨fuel, cursor, hin, hrest, -, -, hread⟩ := decode_append h tail
  rw [hread]
  rcases htail with rfl | ⟨junk, rfl⟩
  · rw [decodeVariables_nil hrest]
    rfl
  · have hnew : seenAfter (fun _ => false) entries 255 ≠ true := by
      intro hseen
      obtain ⟨v, hv, htag⟩ := List.mem_map.mp (seenAfter_eq_true.mp hseen)
      exact tag_ne_end (h.each v hv) htag
    rw [decodeVariables_cons hin hrest, if_neg hnew, if_pos rfl]
    rfl

/-- Nothing else is read. -/
theorem section_of_decode {bytes : List UInt8} {context : QueryCharsetContext}
    (h : decodeQueryCharsetContext bytes = .ok context) :
    ∃ entries tail, WellFormedSection entries ∧ Padding tail ∧ bytes = encodeAll entries ++ tail ∧
      context = contextOf entries := by
  cases hread : decodeVariables (bytes.length + 1) (fun _ => false) .default ⟨bytes, 0⟩ with
  | error reason =>
    rw [decodeQueryCharsetContext, hread] at h
    cases h
  | ok result =>
    rw [decodeQueryCharsetContext, hread] at h
    obtain rfl : result.1 = context := Except.ok.inj h
    have hin : (Cursor.mk bytes 0).InBounds := Nat.zero_le _
    obtain ⟨entries, tail, hbytes, htail, heach, hdistinct, -, hout⟩ :=
      decodeVariables_sound hin hread
    exact ⟨entries, tail, ⟨heach, hdistinct⟩, htail, hbytes, hout.trans (foldl_record hdistinct)⟩

/-- Every string has a context or is rejected. -/
theorem decode_total (bytes : List UInt8) :
    (∃ context, decodeQueryCharsetContext bytes = .ok context) ∨
      ∃ error, decodeQueryCharsetContext bytes = .error (.rejected error) := by
  cases hread : decodeVariables (bytes.length + 1) (fun _ => false) .default ⟨bytes, 0⟩ with
  | error reason =>
    have hin : (Cursor.mk bytes 0).InBounds := Nat.zero_le _
    have hfuel : (Cursor.mk bytes 0).rest.length < bytes.length + 1 := Nat.lt_succ_self _
    obtain ⟨error, rfl⟩ := decodeVariables_rejects hin hfuel hread
    exact .inr ⟨error, by rw [decodeQueryCharsetContext, hread]; rfl⟩
  | ok result => exact .inl ⟨result.1, by rw [decodeQueryCharsetContext, hread]; rfl⟩

/-- A variable that is cut short is rejected. -/
theorem decode_cut (h : WellFormedSection entries) {v : StatusVariable} (hv : v.WellFormed)
    (hnew : v.tag ∉ entries.map StatusVariable.tag) {text : List UInt8} (hbegins : text <+: v.encode)
    (hne : text ≠ []) (hcut : text ≠ v.encode) :
    ∃ error, decodeQueryCharsetContext (encodeAll entries ++ text) = .error (.rejected error) := by
  obtain ⟨fuel, cursor, hin, hrest, -, -, hread⟩ := decode_append h text
  obtain ⟨tag, back, rfl⟩ := List.exists_cons_of_ne_nil hne
  obtain ⟨rfl, hback⟩ := List.cons_prefix_cons.mp hbegins
  obtain ⟨hin', hrest'⟩ := hin.advance_cons hrest
  have hunseen : seenAfter (fun _ => false) entries v.tag ≠ true := fun hseen =>
    hnew (seenAfter_eq_true.mp hseen)
  obtain ⟨error, herror⟩ := (decodeVariable_implements (contextOf entries) v.tag
    cursor.offset).rejects_cut hin' ⟨v, hv, rfl, rfl, rfl⟩ (hrest' ▸ hback)
      fun heq => hcut (by rw [StatusVariable.encode, ← heq, hrest'])
  refine ⟨error, ?_⟩
  rw [hread, decodeVariables_cons hin hrest, if_neg hunseen, if_neg (tag_ne_end hv),
    Reader.bind_of_error herror]
  rfl

/-- A tag that was seen is rejected where it stands. -/
theorem decode_repeated (h : WellFormedSection entries) {tag : UInt8}
    (hseen : tag ∈ entries.map StatusVariable.tag) (back : List UInt8) :
    decodeQueryCharsetContext (encodeAll entries ++ tag :: back) =
      .error (.rejected (.duplicateTag tag (encodeAll entries).length)) := by
  obtain ⟨fuel, cursor, hin, hrest, hoffset, -, hread⟩ := decode_append h (tag :: back)
  rw [hread, decodeVariables_cons hin hrest, if_pos (seenAfter_eq_true.mpr hseen), hoffset]
  rfl

/-- A tag of no variable is rejected where it stands. -/
theorem decode_unknown (h : WellFormedSection entries) {tag : UInt8} (hunknown : tag ∉ knownTags)
    (hend : tag ≠ 255) (back : List UInt8) :
    decodeQueryCharsetContext (encodeAll entries ++ tag :: back) =
      .error (.rejected (.unknownTag tag (encodeAll entries).length)) := by
  obtain ⟨fuel, cursor, hin, hrest, hoffset, -, hread⟩ := decode_append h (tag :: back)
  have hunseen : seenAfter (fun _ => false) entries tag ≠ true := by
    intro hseen
    obtain ⟨v, hv, rfl⟩ := List.mem_map.mp (seenAfter_eq_true.mp hseen)
    exact hunknown (StatusVariable.tag_mem_knownTags (h.each v hv))
  have hskip : decodeVariable tag cursor.offset (contextOf entries) (cursor.advance 1) =
      .error (.rejected (.unknownTag tag cursor.offset)) := by
    have hkept : tag ≠ 1 ∧ tag ≠ 4 ∧ tag ≠ 8 ∧ tag ≠ 131 := by
      refine ⟨?_, ?_, ?_, ?_⟩ <;> (rintro rfl; exact hunknown (by decide))
    rw [decodeVariable_of_skipped _ _ hkept, skipKnownVariable_of_unknown _ hunknown]
    rfl
  rw [hread, decodeVariables_cons hin hrest, if_neg hunseen, if_neg hend,
    Reader.bind_of_error hskip, hoffset]
  rfl

end Sections

/-! ## Repeated charsets -/

section Repeated

variable {pairs mapping : List (UInt16 × UInt16)} {cursor : Cursor} {rest : List UInt8}

theorem readEntries_repeated (hordered : OrderedPairs mapping)
    (hrepeated : ¬((pairs ++ mapping).map Prod.fst).Nodup) (hin : cursor.InBounds)
    (hrest : cursor.rest = pairs.flatMap encodePair ++ rest) :
    ∃ id, 1 < ((pairs ++ mapping).map Prod.fst).count id ∧
      readEntries pairs.length mapping cursor = .error (.rejected (.duplicateCharset id)) := by
  induction pairs generalizing mapping cursor with
  | nil => exact absurd hordered.nodup hrepeated
  | cons pair pairs ih =>
    rw [List.flatMap_cons, encodePair, List.append_assoc, List.append_assoc] at hrest
    have hsource := u16_implements.complete cursor _ _ _ hin rfl hrest
    have hin' := hin.advance ⟨_, hrest.symm⟩
    have hrest' := Cursor.rest_advance_of_eq hrest
    have htarget := u16_implements.complete _ _ _ _ hin' rfl hrest'
    have hin'' := hin'.advance ⟨_, hrest'.symm⟩
    have hrest'' := Cursor.rest_advance_of_eq hrest'
    rw [List.length_cons, readEntries, Reader.bind_of_ok hsource, Reader.bind_of_ok htarget]
    by_cases hmem : pair.1 ∈ mapping.map Prod.fst
    · refine ⟨pair.1, ?_, ?_⟩
      · have hcount := List.count_pos_iff.mpr hmem
        rw [List.cons_append, List.map_cons, List.count_cons_self, List.map_append, List.count_append]
        omega
      · rw [if_pos (insertPair_of_mem hordered hmem)]
        rfl
    · obtain ⟨hnew, hinserted, hperm⟩ := insertPair_of_notMem hordered hmem
      have hkeys : ((pairs ++ (insertPair pair mapping).1).map Prod.fst).Perm
          ((pair :: pairs ++ mapping).map Prod.fst) :=
        ((hperm.append_left pairs).trans List.perm_middle).map Prod.fst
      obtain ⟨id, hcount, hread⟩ :=
        ih hinserted (fun hnodup => hrepeated (hkeys.nodup_iff.mp hnodup)) hin'' hrest''
      refine ⟨id, hkeys.count_eq id ▸ hcount, ?_⟩
      have hfresh : ¬(insertPair pair mapping).2 = true := by
        rw [hnew]
        exact Bool.false_ne_true
      rw [if_neg hfresh]
      exact hread

/-- A mapping that repeats a charset is rejected. -/
theorem readMapping_repeated (hcount : pairs.length < 256) (hrepeated : ¬(pairs.map Prod.fst).Nodup)
    (hin : cursor.InBounds)
    (hrest : cursor.rest = UInt8.ofNat pairs.length :: pairs.flatMap encodePair ++ rest) :
    ∃ id, 1 < (pairs.map Prod.fst).count id ∧
      readMapping cursor = .error (.rejected (.duplicateCharset id)) := by
  have hnat : (UInt8.ofNat pairs.length).toNat = pairs.length := by
    rw [UInt8.toNat_ofNat']
    omega
  obtain ⟨hin', hrest'⟩ := hin.advance_cons hrest
  have hbyte := byte_implements.complete cursor [_] _ _ hin rfl hrest
  have htake := (take_implements (pairs.length * 4)).complete _ _ rest _ hin'
    ⟨length_flatMap_encodePair pairs, rfl⟩ hrest'
  have hinner : (Cursor.mk (pairs.flatMap encodePair) 0).InBounds := Nat.zero_le _
  obtain ⟨id, hid, hread⟩ := readEntries_repeated .nil
    (by rwa [List.append_nil]) hinner (List.append_nil _).symm
  rw [List.append_nil] at hid
  refine ⟨id, hid, ?_⟩
  rw [readMapping, Reader.bind_of_ok hbyte, hnat]
  change (take (pairs.length * 4) >>= _) (cursor.advance 1) = _
  rw [Reader.bind_of_ok htake, Reader.within, hread]
  rfl

end Repeated

theorem decode_repeated_charset {entries : List StatusVariable} (h : WellFormedSection entries)
    (hnew : 131 ∉ entries.map StatusVariable.tag) {pairs : List (UInt16 × UInt16)}
    (hcount : pairs.length < 256) (hrepeated : ¬(pairs.map Prod.fst).Nodup) (back : List UInt8) :
    ∃ id, 1 < (pairs.map Prod.fst).count id ∧
      decodeQueryCharsetContext (encodeAll entries ++ (StatusVariable.collations pairs).encode ++ back) =
        .error (.rejected (.duplicateCharset id)) := by
  obtain ⟨fuel, cursor, hin, hrest, -, -, hread⟩ :=
    decode_append h ((StatusVariable.collations pairs).encode ++ back)
  obtain ⟨hin', hrest'⟩ := hin.advance_cons hrest
  obtain ⟨id, hid, hmapping⟩ := readMapping_repeated hcount hrepeated hin' hrest'
  have hunseen : seenAfter (fun _ => false) entries 131 ≠ true := fun hseen =>
    hnew (seenAfter_eq_true.mp hseen)
  have hdecode : decodeVariable 131 cursor.offset (contextOf entries) (cursor.advance 1) =
      .error (.rejected (.duplicateCharset id)) :=
    Reader.bind_of_error hmapping
  have htag : cursor.rest = 131 :: ((StatusVariable.collations pairs).payload ++ back) := hrest
  refine ⟨id, hid, ?_⟩
  rw [List.append_assoc, hread, decodeVariables_cons hin htag, if_neg hunseen, if_neg (by decide),
    Reader.bind_of_error hdecode]
  rfl

/-- The decoder reads the sections that the server writes, in any order of their variables and with
or without padding, and returns what they say; it reads nothing else; and it ends on every string,
with a context or a rejection: of a variable cut short, a tag seen before, a tag of no variable, and
a mapping with a charset twice. -/
theorem decodeQueryCharsetContext_spec :
    (∀ entries tail, WellFormedSection entries → Padding tail →
      decodeQueryCharsetContext (encodeAll entries ++ tail) = .ok (contextOf entries)) ∧
    (∀ bytes context, decodeQueryCharsetContext bytes = .ok context →
      ∃ entries tail, WellFormedSection entries ∧ Padding tail ∧ bytes = encodeAll entries ++ tail ∧
        context = contextOf entries) ∧
    (∀ bytes, (∃ context, decodeQueryCharsetContext bytes = .ok context) ∨
      ∃ error, decodeQueryCharsetContext bytes = .error (.rejected error)) ∧
    (∀ entries (v : StatusVariable) text, WellFormedSection entries → v.WellFormed →
      v.tag ∉ entries.map StatusVariable.tag → text <+: v.encode → text ≠ [] → text ≠ v.encode →
        ∃ error, decodeQueryCharsetContext (encodeAll entries ++ text) = .error (.rejected error)) ∧
    (∀ entries tag back, WellFormedSection entries → tag ∈ entries.map StatusVariable.tag →
      decodeQueryCharsetContext (encodeAll entries ++ tag :: back) =
        .error (.rejected (.duplicateTag tag (encodeAll entries).length))) ∧
    (∀ entries tag back, WellFormedSection entries → tag ∉ knownTags → tag ≠ 255 →
      decodeQueryCharsetContext (encodeAll entries ++ tag :: back) =
        .error (.rejected (.unknownTag tag (encodeAll entries).length))) ∧
    ∀ entries pairs back, WellFormedSection entries → 131 ∉ entries.map StatusVariable.tag →
      pairs.length < 256 → ¬(pairs.map Prod.fst).Nodup →
        ∃ id, 1 < (pairs.map Prod.fst).count id ∧
          decodeQueryCharsetContext
            (encodeAll entries ++ (StatusVariable.collations pairs).encode ++ back) =
              .error (.rejected (.duplicateCharset id)) :=
  ⟨fun _ _ h htail => decode_section h htail, fun _ _ h => section_of_decode h, decode_total,
    fun _ _ _ h hv hnew hbegins hne hcut => decode_cut h hv hnew hbegins hne hcut,
    fun _ _ back h hseen => decode_repeated h hseen back,
    fun _ _ back h hunknown hend => decode_unknown h hunknown hend back,
    fun _ _ back h hnew hcount hrepeated => decode_repeated_charset h hnew hcount hrepeated back⟩

theorem decodeQueryCharsetContext_spec_padded :
    decodeQueryCharsetContext [2, 1, 120, 0, 131, 2, 45, 0, 43, 9, 8, 0, 8, 0, 255, 7] =
      .ok { QueryCharsetContext.default with characterSetCollations := some [(8, 8), (45, 2347)] } := by
  have hsection : WellFormedSection [.catalog [120], .collations [(45, 2347), (8, 8)]] := by
    refine ⟨fun v hv => ?_, by decide⟩
    simp only [List.mem_cons, List.not_mem_nil, or_false] at hv
    rcases hv with rfl | rfl
    · exact (by decide : [120].length < 256)
    · exact ⟨by decide, by decide⟩
  have hbytes : encodeAll [.catalog [120], .collations [(45, 2347), (8, 8)]] ++ [255, 7] =
      [2, 1, 120, 0, 131, 2, 45, 0, 43, 9, 8, 0, 8, 0, 255, 7] := by
    decide +kernel
  have hcontext : contextOf [.catalog [120], .collations [(45, 2347), (8, 8)]] =
      { QueryCharsetContext.default with characterSetCollations := some [(8, 8), (45, 2347)] } := by
    decide +kernel
  rw [← hbytes, ← hcontext]
  exact decodeQueryCharsetContext_spec.1 _ _ hsection (.inr ⟨[7], rfl⟩)

end BinlogCdc.QueryCharset
