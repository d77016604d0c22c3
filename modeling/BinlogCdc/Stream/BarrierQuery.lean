import BinlogCdc.Core.Like
import BinlogCdc.Sql.Literal

/-!
# The query for the barrier of a source

The journal stores the identity of a source with its server id. The barrier of a source is looked up
by a pattern for the identities that start with the identity of the source and the server id marker.
-/

namespace BinlogCdc

/-- Replace a character of a text. -/
def replaceCharacter (character : Char) (replacement text : Text) : Text :=
  text.flatMap fun c => if c = character then replacement else [c]

/-- A quoted path of names. -/
def quoteIdentifierPath (identifier : Text) : Text :=
  ['.'].intercalate ((identifier.splitOn '.').map quoteIdent)

/-- The pattern for the stored identities of a source. -/
def barrierPattern (sourceIdentity : Text) : Text :=
  let escapedIdentity :=
    replaceCharacter '_' "=_".toList
      (replaceCharacter '%' "=%".toList (replaceCharacter '=' "==".toList sourceIdentity))
  escapedIdentity ++ "#server-id==%".toList

/-- The rest of the query: the barrier is open, and no recovery has passed it. -/
def openBarrierCondition (recoveryTable : Text) : Text :=
  "journal.status IN ('translation_pending','prepared','blocked') AND NOT EXISTS ".toList ++
  "(SELECT 1 FROM ".toList ++ quoteIdentifierPath recoveryTable ++
  " recovery WHERE recovery.status IN ('committed','verified')".toList ++
  " AND recovery.old_barrier_source_identity = journal.source_identity".toList ++
  " AND recovery.old_barrier_file = journal.binlog_file".toList ++
  " AND recovery.old_barrier_start_position = journal.event_start_position".toList ++
  " AND recovery.old_barrier_end_position = journal.event_end_position".toList ++
  " AND recovery.old_barrier_raw_sql_sha256 = SHA2(journal.raw_sql, 256))".toList ++
  " ORDER BY journal.binlog_file,journal.event_start_position LIMIT 1".toList

/-- The query for the first open barrier of a source. -/
def buildBarrierSelectSql (journalTable recoveryTable sourceIdentity : Text) : Text :=
  "SELECT journal.binlog_file,journal.event_start_position,journal.status FROM ".toList ++
  quoteIdentifierPath journalTable ++ " journal WHERE journal.source_identity ".toList ++
  ("LIKE ".toList ++ quoteSqlLiteral (barrierPattern sourceIdentity) ++ " ESCAPE '='".toList) ++
  " AND ".toList ++ openBarrierCondition recoveryTable

/-! ## The pattern -/

/-- The start of the stored identities of a source. -/
def identityStart (sourceIdentity : Text) : Text := sourceIdentity ++ "#server-id=".toList

/-- The three replacements escape the identity: the escape character is replaced before the
replacements for the wildcards add more of it. -/
theorem replacements_eq_escapeLike (identity : Text) :
    replaceCharacter '_' "=_".toList
        (replaceCharacter '%' "=%".toList (replaceCharacter '=' "==".toList identity)) =
      Core.escapeLike '=' identity := by
  unfold replaceCharacter Core.escapeLike
  rw [List.flatMap_assoc, List.flatMap_assoc]
  apply List.flatMap_congr
  intro c _
  by_cases hescape : c = '='
  · rw [hescape]
    rfl
  · by_cases hmany : c = '%'
    · rw [hmany]
      rfl
    · by_cases hone : c = '_'
      · rw [hone]
        rfl
      · simp [hescape, hmany, hone]

/-- The pattern is read as the start of the stored identities and a run of any characters. -/
theorem readLike_barrierPattern (sourceIdentity : Text) :
    Core.readLike '=' (barrierPattern sourceIdentity) =
      (identityStart sourceIdentity).map .literal ++ [.many] := by
  have hmarker : Core.readLike '=' "#server-id==%".toList =
      "#server-id=".toList.map .literal ++ [.many] := by decide
  unfold barrierPattern identityStart
  rw [replacements_eq_escapeLike, Core.readLike_escapeLike, hmarker, List.map_append,
    List.append_assoc]

/-- The condition is read as a pattern with its escape character. -/
theorem readsAs_likeCondition (pattern : Text) :
    ReadsAs ("LIKE ".toList ++ quoteSqlLiteral pattern ++ " ESCAPE '='".toList)
      [.word "LIKE".toList, .literal pattern, .word "ESCAPE".toList, .literal ['=']] := by
  have hlike : ReadsAs "LIKE".toList [.word "LIKE".toList] :=
    ⟨[], .word "LIKE".toList, _, by decide, rfl, rfl⟩
  have hescape : ReadsAs " ESCAPE '='".toList [.word "ESCAPE".toList, .literal ['=']] :=
    ⟨[.word "ESCAPE".toList], .literalQuote ['='], _, by decide, rfl, rfl⟩
  have hpattern := (readsAs_quoteSqlLiteral pattern).append (by decide) hescape
  exact hlike.wordBlank hpattern

/-- The query selects by one condition on the identity, and the pattern of this condition matches an
identity if and only if it starts with the identity of the source and the marker, character by
character as the column compares them. -/
theorem buildBarrierSelectSql_matches (journalTable recoveryTable sourceIdentity : Text) :
    ∃ front condition back pattern,
      buildBarrierSelectSql journalTable recoveryTable sourceIdentity =
        front ++ " journal WHERE journal.source_identity ".toList ++ condition ++ " AND ".toList ++ back ∧
      ReadsAs condition
        [.word "LIKE".toList, .literal pattern, .word "ESCAPE".toList, .literal ['=']] ∧
      (∀ stored, Core.likeMatches (· == ·) (Core.readLike '=' pattern) stored = true ↔
        sourceIdentity ++ "#server-id=".toList <+: stored) ∧
      ∀ same stored, Core.likeMatches same (Core.readLike '=' pattern) stored = true ↔
        ∃ start rest, stored = start ++ rest ∧
          List.Forall₂ (fun want character => same want character = true)
            (sourceIdentity ++ "#server-id=".toList) start := by
  refine ⟨_, _, openBarrierCondition recoveryTable, barrierPattern sourceIdentity, rfl,
    readsAs_likeCondition (barrierPattern sourceIdentity), ?_, ?_⟩
  · intro stored
    rw [readLike_barrierPattern, Core.likeMatches_begins_eq, identityStart]
  · intro same stored
    rw [readLike_barrierPattern, Core.likeMatches_begins, identityStart]

end BinlogCdc
