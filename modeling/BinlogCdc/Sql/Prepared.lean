import BinlogCdc.Sql.Literal

/-!
# Prepared statements

The text of a prepared statement has placeholders: question marks outside quoted names and literals.
The server reads the tokens of the text and gives each placeholder the next parameter. A text that
was put together from parts binds what its parts bind, in the order of the parts.
-/

namespace BinlogCdc

/-! ## Placeholders -/

/-- The tokens of a statement to prepare. -/
inductive PreparedToken where
  | token (token : TextToken)
  | placeholder
deriving DecidableEq, Repr

/-- Read one character; a question mark ends what is not inside quotes. -/
def readPreparedCharacter (state : ReadState) (c : Char) : Option (List PreparedToken × ReadState) :=
  let other := (readCharacter state c).map fun (tokens, state) => (tokens.map .token, state)
  match state.held with
  | some held => if c = '?' then some (held.map .token ++ [.placeholder], .between) else other
  | none => other

/-- Read a text. -/
def readPrepared : ReadState → Text → Option (List PreparedToken × ReadState)
  | state, [] => some ([], state)
  | state, c :: text => do
    let (tokens, state) ← readPreparedCharacter state c
    let (more, state) ← readPrepared state text
    return (tokens ++ more, state)

/-- The tokens of a text to prepare. -/
def preparedTokens (text : Text) : Option (List PreparedToken) := do
  let (tokens, state) ← readPrepared .between text
  let held ← state.held
  return tokens ++ held.map .token

/-- A token of a statement whose placeholders have values. -/
inductive BoundToken (V : Type) where
  | token (token : TextToken)
  | value (value : V)
deriving DecidableEq, Repr

variable {V : Type}

/-- Each placeholder takes the next parameter; there are as many of both. -/
def bindTokens : List PreparedToken → List V → Option (List (BoundToken V))
  | [], [] => some []
  | [], _ :: _ => none
  | .token token :: tokens, params => (bindTokens tokens params).map (.token token :: ·)
  | .placeholder :: _, [] => none
  | .placeholder :: tokens, param :: params => (bindTokens tokens params).map (.value param :: ·)

theorem bindTokens_append {front back : List PreparedToken} {params params' : List V}
    {bound bound' : List (BoundToken V)} (hfront : bindTokens front params = some bound)
    (hback : bindTokens back params' = some bound') :
    bindTokens (front ++ back) (params ++ params') = some (bound ++ bound') := by
  induction front generalizing params bound with
  | nil =>
    cases params with
    | nil =>
      obtain rfl := Option.some.inj hfront
      exact hback
    | cons param params => cases hfront
  | cons first front ih =>
    cases first with
    | token token =>
      obtain ⟨rest, hrest, rfl⟩ := Option.map_eq_some_iff.mp hfront
      rw [List.cons_append, bindTokens, ih hrest]
      rfl
    | placeholder =>
      cases params with
      | nil => cases hfront
      | cons param params =>
        obtain ⟨rest, hrest, rfl⟩ := Option.map_eq_some_iff.mp hfront
        rw [List.cons_append, List.cons_append, bindTokens, ih hrest]
        rfl

/-- Bound tokens have a parameter for each placeholder. -/
theorem count_placeholder {tokens : List PreparedToken} {params : List V}
    {bound : List (BoundToken V)} (h : bindTokens tokens params = some bound) :
    tokens.count .placeholder = params.length := by
  induction tokens generalizing params bound with
  | nil =>
    cases params with
    | nil => rfl
    | cons param params => cases h
  | cons first tokens ih =>
    cases first with
    | token token =>
      obtain ⟨rest, hrest, -⟩ := Option.map_eq_some_iff.mp h
      rw [List.count_cons_of_ne (by simp), ih hrest]
    | placeholder =>
      cases params with
      | nil => cases h
      | cons param params =>
        obtain ⟨rest, hrest, -⟩ := Option.map_eq_some_iff.mp h
        rw [List.count_cons_self, ih hrest, List.length_cons]

/-! ## Reading in parts -/

theorem readPrepared_append (state : ReadState) (front back : Text) :
    readPrepared state (front ++ back) = do
      let (tokens, state) ← readPrepared state front
      let (more, state) ← readPrepared state back
      return (tokens ++ more, state) := by
  induction front generalizing state with
  | nil =>
    simp only [List.nil_append, readPrepared, Option.bind_eq_bind, Option.bind_some,
      Option.pure_def]
    cases readPrepared state back with
    | none => rfl
    | some read => rfl
  | cons c front ih =>
    simp only [List.cons_append, readPrepared]
    cases readPreparedCharacter state c with
    | none => rfl
    | some read =>
      obtain ⟨tokens, state⟩ := read
      simp only [Option.bind_eq_bind, Option.bind_some, ih]
      cases readPrepared state front with
      | none => rfl
      | some read =>
        obtain ⟨more, state⟩ := read
        simp only [Option.bind_some, Option.pure_def]
        cases readPrepared state back with
        | none => rfl
        | some read => simp [List.append_assoc]

/-- The text can be read on its own; with the parameters it is these tokens. -/
def BindsAs (text : Text) (params : List V) (bound : List (BoundToken V)) : Prop :=
  ∃ front state held, readPrepared .between text = some (front, state) ∧
    ReadState.held state = some held ∧
    bindTokens (front ++ held.map PreparedToken.token) params = some bound

variable {text text' : Text} {params params' : List V} {bound bound' : List (BoundToken V)}

theorem BindsAs.preparedTokens (h : BindsAs text params bound) :
    ∃ tokens, preparedTokens text = some tokens ∧ bindTokens tokens params = some bound := by
  obtain ⟨front, state, held, hread, hheld, hbound⟩ := h
  refine ⟨_, ?_, hbound⟩
  simp [BinlogCdc.preparedTokens, hread, hheld]

theorem bindsAs_nil : BindsAs [] ([] : List V) [] := ⟨[], .between, [], rfl, rfl, rfl⟩

/-- What a word binds, read letter by letter. -/
theorem bindsAs_word {word read : Text} {state : ReadState}
    (hread : readPrepared .between word = some ([], state))
    (hheld : state.held = some [.word read]) :
    BindsAs word ([] : List V) [.token (.word read)] :=
  ⟨[], state, _, hread, hheld, rfl⟩

theorem bindsAs_placeholder (param : V) : BindsAs ['?'] [param] [.value param] :=
  ⟨[.placeholder], .between, [], rfl, rfl, rfl⟩

/-- A question mark does not begin a token of another kind. -/
theorem ne_placeholder {c : Char} (h : isSeparator c = true) : c ≠ '?' := by
  rintro rfl
  exact absurd h (by decide)

theorem readPreparedCharacter_separator {state : ReadState} {held : List TextToken} {c : Char}
    (hc : isSeparator c = true) (hheld : state.held = some held) :
    readPreparedCharacter state c = (beginToken c).map fun (tokens, state) =>
      (held.map .token ++ tokens.map .token, state) := by
  rw [readPreparedCharacter, hheld]
  dsimp only
  rw [if_neg (ne_placeholder hc), readCharacter_separator hc hheld]
  cases beginToken c with
  | none => rfl
  | some begun => simp

/-- Texts can be joined where the second one begins with a separator. -/
theorem BindsAs.append {c : Char} (h : BindsAs text params bound) (hc : isSeparator c = true)
    (h' : BindsAs (c :: text') params' bound') :
    BindsAs (text ++ c :: text') (params ++ params') (bound ++ bound') := by
  obtain ⟨front, state, held, hread, hheld, hbound⟩ := h
  obtain ⟨front', state', held', hread', hheld', hbound'⟩ := h'
  have hbetween : ReadState.held .between = some [] := rfl
  rw [readPrepared, readPreparedCharacter_separator hc hbetween] at hread'
  refine ⟨front ++ held.map .token ++ front', state', held', ?_, hheld', ?_⟩
  · rw [readPrepared_append, hread]
    simp only [Option.bind_eq_bind, Option.bind_some, readPrepared,
      readPreparedCharacter_separator hc hheld]
    cases hbegin : beginToken c with
    | none => rw [hbegin] at hread'; cases hread'
    | some begun =>
      obtain ⟨tokens, begun⟩ := begun
      rw [hbegin] at hread'
      simp only [Option.bind_eq_bind, Option.bind_some, Option.map_some] at hread' ⊢
      cases hrest : readPrepared begun text' with
      | none => rw [hrest] at hread'; cases hread'
      | some rest =>
        obtain ⟨more, last⟩ := rest
        rw [hrest] at hread'
        simp only [Option.bind_some, Option.pure_def, Option.some.injEq, Prod.mk.injEq,
          List.map_nil, List.nil_append] at hread' ⊢
        obtain ⟨rfl, rfl⟩ := hread'
        simp
  · rw [List.append_assoc]
    exact bindTokens_append hbound hbound'

/-- A blank before a text is skipped. -/
theorem BindsAs.blank (h : BindsAs text params bound) : BindsAs (' ' :: text) params bound := by
  obtain ⟨front, state, held, hread, hheld, hbound⟩ := h
  refine ⟨front, state, held, ?_, hheld, hbound⟩
  rw [readPrepared, show readPreparedCharacter .between ' ' = some ([], .between) by decide]
  simp [hread]

/-- A symbol before a text is a token. -/
theorem BindsAs.symbol {c : Char}
    (hc : readPreparedCharacter .between c = some ([.token (.symbol c)], .between))
    (h : BindsAs text params bound) :
    BindsAs (c :: text) params (.token (.symbol c) :: bound) := by
  obtain ⟨front, state, held, hread, hheld, hbound⟩ := h
  refine ⟨.token (.symbol c) :: front, state, held, ?_, hheld, ?_⟩
  · rw [readPrepared, hc]
    simp [hread]
  · rw [List.cons_append, bindTokens, hbound]
    rfl

/-- A word before a blank and a text. -/
theorem BindsAs.wordBlank {word : Text} {token : TextToken}
    (hword : BindsAs word ([] : List V) [.token token]) (h : BindsAs text params bound) :
    BindsAs (word ++ ' ' :: text) params (.token token :: bound) :=
  hword.append (by decide) h.blank

/-- A text in parentheses. -/
theorem BindsAs.group (h : BindsAs text params bound) :
    BindsAs ("(".toList ++ text ++ ")".toList) params
      (.token (.symbol '(') :: (bound ++ [.token (.symbol ')')])) := by
  have hclosing : BindsAs [')'] ([] : List V) [.token (.symbol ')')] :=
    bindsAs_nil.symbol (by decide)
  have hall := (h.append (by decide) hclosing).symbol (c := '(') (by decide)
  rwa [List.append_nil] at hall

/-- Parts joined by a separator are bound one by one, each to its own parameters. -/
theorem BindsAs.intercalate {α : Type} {first : Char} {separator : Text}
    {between : List (BoundToken V)} {texts : α → Text} {paramsOf : α → List V}
    {tokensOf : α → List (BoundToken V)} {items : List α} (hfirst : isSeparator first = true)
    (hseparator : ∀ text (params : List V) bound, BindsAs text params bound →
      BindsAs (first :: separator ++ text) params (between ++ bound))
    (h : ∀ item ∈ items, BindsAs (texts item) (paramsOf item) (tokensOf item)) :
    BindsAs ((first :: separator).intercalate (items.map texts)) (items.flatMap paramsOf)
      (between.intercalate (items.map tokensOf)) := by
  induction items with
  | nil => exact bindsAs_nil
  | cons item items ih =>
    have hitem := h item List.mem_cons_self
    have hrest := ih fun other hother => h other (List.mem_cons_of_mem item hother)
    cases items with
    | nil => simpa using hitem
    | cons other items =>
      simp only [List.map_cons, List.flatMap_cons] at hrest ⊢
      rw [List.intercalate_cons_cons, List.intercalate_cons_cons, List.append_assoc,
        List.append_assoc]
      exact hitem.append hfirst (hseparator _ _ _ hrest)

/-! ## Quoted names -/

/-- Reading a name adds its characters to those read, question marks too. -/
theorem readPrepared_doubled_name (read name : Text) :
    readPrepared (.name read) (doubled backQuote name) = some ([], .name (read ++ name)) := by
  induction name generalizing read with
  | nil => simp [doubled, readPrepared]
  | cons c name ih =>
    have hquote : backQuote ≠ '?' := by decide
    rw [doubled_cons]
    by_cases hc : c = backQuote
    · rw [if_pos hc, hc]
      simp [readPrepared, readPreparedCharacter, readCharacter, ReadState.held, hquote, ih]
    · rw [if_neg hc]
      simp [readPrepared, readPreparedCharacter, readCharacter, ReadState.held, hc, ih]

theorem bindsAs_quoteIdent (name : Text) :
    BindsAs (quoteIdent name) ([] : List V) [.token (.name name)] := by
  refine ⟨[], .nameQuote name, [.name name], ?_, rfl, rfl⟩
  rw [quoteIdent, readPrepared,
    show readPreparedCharacter .between backQuote = some ([], .name []) by decide]
  simp [readPrepared_append, readPrepared_doubled_name, readPrepared, readPreparedCharacter,
    readCharacter, ReadState.held]

end BinlogCdc
