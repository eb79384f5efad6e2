import Mathlib.Data.List.Sort
import Liteset.Lib.Json
import Liteset.Lib.RecordedCalls

/-!
# Cache keys of Jinja templates

The macros of `ExtraCache` in `jinja_context.py`.  A macro answers with a value and may
append a key to `extra_cache_keys`; whether a template is rendered for its keys at all is
decided by a regular expression over its source.
-/

set_option autoImplicit false

namespace Liteset.Sql.ExtraCacheKeys

open Liteset.Lib Liteset.Lib.RecordedCalls

/-- The object of `get_current_user`; `groupRoles` is `none` where the query raises. -/
structure User where
  id : Option Int := none
  username : Option String := none
  email : Option String := none
  isAuthenticated : Bool := true
  roles : List String := []
  groupRoles : Option (List String) := some []

/-- `rlsRules` is what `_sync_get_rls_rules` gives, `none` where it raises. -/
structure Request where
  user : Option User := none
  queryParams : String → Option String := fun _ => none
  urlParams : String → Option Json := fun _ => none
  rlsRules : Option (List String) := some []

def inner (text : String) : String := String.ofList (text.toList.drop 1).dropLast

structure Dialect where
  literalProcessor : String → String
  IsLiteralBody : String → Prop
  escapes : ∀ text, IsLiteralBody (inner (literalProcessor text))
  empty : IsLiteralBody ""

structure Context where
  dialect : Option Dialect := none
  hasTable : Bool := true
  publicRole : Option String := none
  publicRoleExists : Bool := false
  dumps : List String → String

abbrev Left := Option (Json × Option Json)

section Macros

variable (context : Context) (request : Request) (addToCacheKeys : Bool)

def recorded (value key : Json) : Left := some (value, if addToCacheKeys then some key else none)

def absent : Left := some (.null, none)

def currentUserId : Left :=
  match request.user.bind User.id with
  | some id => if id ≠ 0 then recorded addToCacheKeys (.int id) (.int id) else absent
  | none => absent

/-- `current_username` and `current_user_email`. -/
def currentUserText (text : Option String) : Left :=
  match text with
  | some text => if text ≠ "" then recorded addToCacheKeys (.str text) (.str text) else absent
  | none => absent

def currentUsername : Left := currentUserText addToCacheKeys (request.user.bind User.username)

def currentUserEmail : Left := currentUserText addToCacheKeys (request.user.bind User.email)

def texts (items : List String) : Json := .list (items.map .str)

/-- `sorted` of a set. -/
def sortedNames (names : List String) : List String := names.dedup.insertionSort (· ≤ ·)

def recordedTexts (items : List String) : Left :=
  recorded addToCacheKeys (texts items) (.str (context.dumps items))

def publicRoles : Left :=
  match context.publicRole with
  | some role =>
    if role ≠ "" ∧ context.publicRoleExists then recordedTexts context addToCacheKeys [role]
      else absent
  | none => absent

def roleNames (user : User) : List String :=
  user.roles ++ if user.id.isSome then user.groupRoles.getD [] else []

def currentUserRoles : Left :=
  match request.user with
  | none => publicRoles context addToCacheKeys
  | some user =>
    if user.isAuthenticated then
      if (roleNames user).isEmpty then absent
      else recordedTexts context addToCacheKeys (sortedNames (roleNames user))
    else publicRoles context addToCacheKeys

def currentUserRlsRules : Left :=
  if context.hasTable then
    match request.rlsRules with
    | some rules => if rules.isEmpty then absent else recordedTexts context true rules
    | none => absent
  else absent

/-- The parameter of the form data, escaped for the dialect; only a text has `replace`. -/
def escaped (escapeResult : Bool) (result : Json) : Option Json :=
  if result.truthy && escapeResult then
    match context.dialect with
    | none => some result
    | some dialect =>
      match result with
      | .str text => some (.str (inner (dialect.literalProcessor text)))
      | _ => none
  else some result

def urlParam (param : String) (default : Json) (escapeResult : Bool) : Left :=
  match (request.queryParams param).filter fun value => value ≠ "" with
  | some value => some (.str value, none)
  | none =>
    (escaped context escapeResult ((request.urlParams param).getD default)).bind fun result =>
      recorded addToCacheKeys result result

end Macros

inductive Call where
  | currentUserId
  | currentUsername
  | currentUserEmail
  | currentUserRoles
  | currentUserRlsRules
  | urlParam (param : String) (default : Json)

def answer (context : Context) (request : Request) : Oracle Call Json Json
  | .currentUserId => currentUserId request true
  | .currentUsername => currentUsername request true
  | .currentUserEmail => currentUserEmail request true
  | .currentUserRoles => currentUserRoles context request true
  | .currentUserRlsRules => currentUserRlsRules context request
  | .urlParam param default => urlParam context request true param default true

abbrev Template := Program Call Json String

/-- The answers for renderings that make none but the given calls. -/
def answerWithin (context : Context) (request : Request) (calls : Call → Bool) :
    Oracle Call Json Json :=
  fun call => if calls call then answer context request call else none

/-- A source as Jinja cuts it up; a statement tag is one with `%`. -/
inductive Segment where
  | text (chars : List Char)
  | tag (statement : Bool) (body : List Char)

def Segment.source : Segment → List Char
  | .text chars => chars
  | .tag statement body =>
    '{' :: (if statement then '%' else '{') :: (body ++ [if statement then '%' else '}', '}'])

/-- The names of `ExtraCache.regex`. -/
def macroNames : List String :=
  ["current_user_id", "current_username", "current_user_email", "current_user_rls_rules",
    "current_user_roles", "cache_key_wrapper", "url_param"]

/-- The lexer and the renderer of Jinja: a rendering can only call a macro whose name stands
in a tag. -/
structure Jinja where
  segments : String → Option (List Segment)
  render : String → Option Template
  printed : ∀ source parts, segments source = some parts →
    parts.flatMap Segment.source = source.toList
  named : ∀ source call next, render source = some (.ask call next) →
    ∃ parts statement body name, segments source = some parts ∧ .tag statement body ∈ parts ∧
      name ∈ macroNames ∧ name.toList <:+: body

/-- `[^{}]*?(\}\}|%\})` -/
def closes : List Char → Bool
  | [] => false
  | c :: rest =>
    (c = '}' && rest.head? = some '}') || (c = '%' && rest.head? = some '}') ||
      (c ≠ '{' && c ≠ '}' && closes rest)

/-- `[^()]*\)` and what follows. -/
def arguments : List Char → Bool
  | [] => false
  | c :: rest => if c = ')' then closes rest else c ≠ '(' && arguments rest

/-- `name\(` and what follows, for one of the names. -/
def calls (text : List Char) : Bool :=
  macroNames.any fun name =>
    (name.toList ++ ['(']).isPrefixOf text && arguments (text.drop (name.toList.length + 1))

/-- `[^{}]*?` and a call. -/
def gap : List Char → Bool
  | [] => false
  | c :: rest => calls (c :: rest) || (c ≠ '{' && c ≠ '}' && gap rest)

def search : List Char → Bool
  | [] => false
  | c :: rest =>
    (c = '{' && (rest.head? = some '{' || rest.head? = some '%') && gap (rest.drop 1)) ||
      search rest

def BraceFree (text : List Char) : Prop := '{' ∉ text ∧ '}' ∉ text

theorem braceFree_nil : BraceFree [] := ⟨nofun, nofun⟩

theorem braceFree_cons (c : Char) (text : List Char) : BraceFree (c :: text) ↔
    c ≠ '{' ∧ c ≠ '}' ∧ BraceFree text := by
  simp only [BraceFree, List.mem_cons, not_or]
  constructor
  · rintro ⟨⟨opens, left⟩, closes, right⟩
    exact ⟨Ne.symm opens, Ne.symm closes, left, right⟩
  · rintro ⟨opens, closes, left, right⟩
    exact ⟨⟨Ne.symm opens, left⟩, Ne.symm closes, right⟩

theorem closes_iff (text : List Char) :
    closes text = true ↔
      ∃ space c after, text = space ++ c :: '}' :: after ∧ (c = '}' ∨ c = '%') ∧
      BraceFree space := by
  induction text with
  | nil => simp [closes]
  | cons c rest ih =>
    rw [closes, Bool.or_eq_true, Bool.or_eq_true, Bool.and_eq_true, Bool.and_eq_true,
      Bool.and_eq_true, Bool.and_eq_true, ih]
    simp only [decide_eq_true_eq]
    constructor
    · rintro ((⟨rfl, next⟩ | ⟨rfl, next⟩) | ⟨⟨opens, shuts⟩, space, d, after, rfl, kind, free⟩)
      · obtain ⟨after, rfl⟩ := List.head?_eq_some_iff.mp next
        exact ⟨[], '}', after, rfl, Or.inl rfl, braceFree_nil⟩
      · obtain ⟨after, rfl⟩ := List.head?_eq_some_iff.mp next
        exact ⟨[], '%', after, rfl, Or.inr rfl, braceFree_nil⟩
      · exact ⟨c :: space, d, after, rfl, kind, (braceFree_cons c space).mpr ⟨opens, shuts, free⟩⟩
    · rintro ⟨space, d, after, same, kind, free⟩
      cases space with
      | nil =>
        obtain ⟨rfl, rfl⟩ := List.cons.inj same
        exact Or.inl (kind.imp (fun equal => ⟨equal, rfl⟩) fun equal => ⟨equal, rfl⟩)
      | cons e space =>
        obtain ⟨rfl, rfl⟩ := List.cons.inj same
        obtain ⟨opens, shuts, left⟩ := (braceFree_cons c space).mp free
        exact Or.inr ⟨⟨opens, shuts⟩, space, d, after, rfl, kind, left⟩

theorem arguments_iff (text : List Char) :
    arguments text = true ↔
      ∃ args rest, text = args ++ ')' :: rest ∧ '(' ∉ args ∧ ')' ∉ args ∧ closes rest = true := by
  induction text with
  | nil => simp [arguments]
  | cons c rest ih =>
    rw [arguments]
    by_cases ends : c = ')'
    · rw [if_pos ends]
      constructor
      · intro closed
        exact ⟨[], rest, by rw [ends]; rfl, nofun, nofun, closed⟩
      · rintro ⟨args, left, same, _, plain, closed⟩
        cases args with
        | nil => rwa [(List.cons.inj same).2]
        | cons d args =>
          exact absurd (by rw [← ends, (List.cons.inj same).1]; exact List.mem_cons_self) plain
    · rw [if_neg ends, Bool.and_eq_true, ih, decide_eq_true_eq]
      constructor
      · rintro ⟨opens, args, left, rfl, noOpen, noClose, closed⟩
        refine ⟨c :: args, left, rfl, ?_, ?_, closed⟩
        · exact fun member => (List.mem_cons.mp member).elim (fun equal => opens equal.symm) noOpen
        · exact fun member => (List.mem_cons.mp member).elim (fun equal => ends equal.symm) noClose
      · rintro ⟨args, left, same, noOpen, noClose, closed⟩
        cases args with
        | nil => exact absurd (List.cons.inj same).1 ends
        | cons d args =>
          obtain ⟨rfl, rfl⟩ := List.cons.inj same
          exact ⟨fun equal => noOpen (by rw [equal]; exact List.mem_cons_self), args, left, rfl,
            fun member => noOpen (List.mem_cons_of_mem c member),
            fun member => noClose (List.mem_cons_of_mem c member), closed⟩

theorem calls_iff (text : List Char) :
    calls text = true ↔
    ∃ name ∈ macroNames, ∃ rest, text = name.toList ++ '(' :: rest ∧ arguments rest = true := by
  rw [calls, List.any_eq_true]
  refine exists_congr fun name => and_congr_right fun _ => ?_
  rw [Bool.and_eq_true, List.isPrefixOf_iff_prefix]
  constructor
  · rintro ⟨⟨rest, rfl⟩, found⟩
    refine ⟨rest, by simp, ?_⟩
    rwa [List.drop_left' (by simp)] at found
  · rintro ⟨rest, rfl, found⟩
    refine ⟨⟨rest, by simp⟩, ?_⟩
    have split : name.toList ++ '(' :: rest = (name.toList ++ ['(']) ++ rest := by simp
    rwa [split, List.drop_left' (by simp)]

theorem gap_iff (text : List Char) :
    gap text = true ↔ ∃ space rest, text = space ++ rest ∧ BraceFree space ∧ calls rest = true := by
  induction text with
  | nil => simp [gap, calls, macroNames]
  | cons c rest ih =>
    rw [gap, Bool.or_eq_true, Bool.and_eq_true, Bool.and_eq_true, ih]
    simp only [decide_eq_true_eq]
    constructor
    · rintro (found | ⟨⟨opens, shuts⟩, space, left, rfl, free, found⟩)
      · exact ⟨[], c :: rest, rfl, braceFree_nil, found⟩
      · exact ⟨c :: space, left, rfl, (braceFree_cons c space).mpr ⟨opens, shuts, free⟩, found⟩
    · rintro ⟨space, left, same, free, found⟩
      cases space with
      | nil => exact Or.inl (by rw [show c :: rest = left from same]; exact found)
      | cons d space =>
        obtain ⟨rfl, rfl⟩ := List.cons.inj same
        obtain ⟨opens, shuts, still⟩ := (braceFree_cons c space).mp free
        exact Or.inr ⟨⟨opens, shuts⟩, space, left, rfl, still, found⟩

theorem search_iff_gap (text : List Char) :
    search text = true ↔
      ∃ before kind rest, text = before ++ '{' :: kind :: rest ∧ (kind = '{' ∨ kind = '%') ∧
      gap rest = true := by
  induction text with
  | nil => simp [search]
  | cons c rest ih =>
    rw [search, Bool.or_eq_true, ih]
    constructor
    · rintro (found | ⟨before, kind, left, rfl, opens, found⟩)
      · simp only [Bool.and_eq_true, Bool.or_eq_true, decide_eq_true_eq] at found
        obtain ⟨⟨rfl, kind⟩, found⟩ := found
        cases rest with
        | nil => simp [gap] at found
        | cons d rest =>
          exact ⟨[], d, rest, rfl, kind.imp Option.some.inj Option.some.inj, found⟩
      · exact ⟨c :: before, kind, left, rfl, opens, found⟩
    · rintro ⟨before, kind, left, same, opens, found⟩
      cases before with
      | nil =>
        obtain ⟨rfl, rfl⟩ := List.cons.inj same
        refine Or.inl ?_
        rcases opens with rfl | rfl <;> simpa using found
      | cons d before =>
        obtain ⟨rfl, rfl⟩ := List.cons.inj same
        exact Or.inr ⟨before, kind, left, rfl, opens, found⟩

/-- Somewhere in the source a tag opens; up to a macro name that a parenthesis follows
there is no brace, up to the closing parenthesis no further parenthesis, and up to the end
of the tag no brace again. -/
def WrittenPlainly (text : List Char) : Prop :=
  ∃ (before : List Char) (kind : Char) (space : List Char) (name : String)
    (args space' : List Char) (last : Char) (after : List Char),
    text = before ++
      '{' :: kind ::
        (space ++ (name.toList ++ '(' :: (args ++ ')' :: (space' ++ last :: '}' :: after)))) ∧
      (kind = '{' ∨ kind = '%') ∧ BraceFree space ∧ name ∈ macroNames ∧ '(' ∉ args ∧ ')' ∉ args ∧
      BraceFree space' ∧ (last = '}' ∨ last = '%')

theorem search_iff (text : List Char) : search text = true ↔ WrittenPlainly text := by
  rw [search_iff_gap]
  constructor
  · rintro ⟨before, kind, rest, rfl, opens, found⟩
    obtain ⟨space, call, rfl, free, called⟩ := (gap_iff rest).mp found
    obtain ⟨name, known, following, rfl, given⟩ := (calls_iff call).mp called
    obtain ⟨args, left, rfl, noOpen, noClose, closed⟩ := (arguments_iff following).mp given
    obtain ⟨space', last, after, rfl, ends, free'⟩ := (closes_iff left).mp closed
    exact ⟨before, kind, space, name, args, space', last, after, rfl, opens, free, known, noOpen,
      noClose, free', ends⟩
  · rintro ⟨before, kind, space, name, args, space', last, after, rfl, opens, free, known, noOpen,
      noClose, free', ends⟩
    refine ⟨before, kind, _, rfl, opens,
      (gap_iff _).mpr ⟨space, _, rfl, free, (calls_iff _).mpr ⟨name, known, _, rfl, ?_⟩⟩⟩
    exact (arguments_iff _).mpr ⟨args, _, rfl, noOpen, noClose,
      (closes_iff _).mpr ⟨space', last, after, rfl, ends, free'⟩⟩

def keyFor (context : Context) (call : Call) (value : Json) : Json :=
  match call, value with
  | .currentUserRoles, .list items =>
    .str (context.dumps (items.map fun item => if let .str text := item then text else ""))
  | .currentUserRlsRules, .list items =>
    .str (context.dumps (items.map fun item => if let .str text := item then text else ""))
  | _, value => value

theorem recordedTexts_key (context : Context) (call : Call)
    (listed : call = .currentUserRoles ∨ call = .currentUserRlsRules)
    (items : List String) (value key : Json)
    (left : recordedTexts context true items = some (value, some key)) :
    key = keyFor context call value := by
  obtain ⟨rfl, keyed⟩ := Prod.mk.inj (Option.some.inj left)
  obtain rfl := Option.some.inj keyed
  have same : (items.map Json.str).map (fun item => if let .str text := item then text else "") =
      items := by
    rw [List.map_map]
    exact List.map_id'' (fun _ => rfl) items
  rcases listed with rfl | rfl <;> simp only [keyFor, texts, same]

theorem recorded_key {value given key : Json}
    (left : recorded true given given = some (value, some key)) : key = value := by
  obtain ⟨rfl, keyed⟩ := Prod.mk.inj (Option.some.inj left)
  exact (Option.some.inj keyed).symm

theorem currentUserText_key (text : Option String) {value key : Json}
    (left : currentUserText true text = some (value, some key)) : key = value := by
  cases text with
  | none => cases left
  | some text =>
    rw [currentUserText] at left
    split at left
    · exact recorded_key left
    · cases left

theorem publicRoles_key (context : Context) {value key : Json}
    (left : publicRoles context true = some (value, some key)) :
    key = keyFor context .currentUserRoles value := by
  rw [publicRoles] at left
  split at left
  · split at left
    · exact recordedTexts_key context _ (Or.inl rfl) _ value key left
    · cases left
  · cases left

theorem key_of_answer (context : Context) (request : Request) (call : Call) (value key : Json)
    (left : answer context request call = some (value, some key)) :
    key = keyFor context call value := by
  cases call with
  | currentUserId =>
    rw [answer, currentUserId] at left
    split at left
    · split at left
      · exact recorded_key left
      · cases left
    · cases left
  | currentUsername => exact currentUserText_key _ left
  | currentUserEmail => exact currentUserText_key _ left
  | currentUserRoles =>
    rw [answer, currentUserRoles] at left
    split at left
    · exact publicRoles_key context left
    · split at left
      · split at left
        · cases left
        · exact recordedTexts_key context _ (Or.inl rfl) _ value key left
      · exact publicRoles_key context left
  | currentUserRlsRules =>
    rw [answer, currentUserRlsRules] at left
    split at left
    · split at left
      · split at left
        · cases left
        · exact recordedTexts_key context _ (Or.inr rfl) _ value key left
      · cases left
    · cases left
  | urlParam param default =>
    rw [answer, urlParam] at left
    split at left
    · cases left
    · obtain ⟨result, _, kept⟩ := Option.bind_eq_some_iff.mp left
      exact recorded_key kept

theorem sameKey (context : Context) (first second : Request) (call : Call) (value key other : Json)
    (left : answer context first call = some (value, some key))
    (right : answer context second call = some (value, some other)) : key = other :=
  (key_of_answer context first call value key left).trans
    (key_of_answer context second call value other right).symm

/-- Each of the calls that the two requests answer with two values is told apart by its keys. -/
def Distinguished (calls : Call → Bool) (context : Context) (first second : Request) : Prop :=
  ∀ call v w key other, answerWithin context first calls call = some (v, key) →
    answerWithin context second calls call = some (w, other) → v ≠ w →
      ToldApart (answerWithin context first calls) (answerWithin context second calls) key other

theorem answer_of_within {context : Context} {request : Request} {calls : Call → Bool} {call : Call}
    {answered : Json × Option Json}
    (left : answerWithin context request calls call = some answered) :
    answer context request call = some answered := by
  rw [answerWithin] at left
  split at left
  · exact left
  · cases left

theorem separated_iff_distinguished (calls : Call → Bool) (context : Context)
    (first second : Request) :
    Separated (answerWithin context first calls) (answerWithin context second calls) String ↔
      Distinguished calls context first second :=
  separated_iff (show "" ≠ "-" by decide) fun call value key other left right =>
    sameKey context first second call value key other (answer_of_within left)
      (answer_of_within right)

/-- In the tag a macro name is followed at once by its arguments, without parentheses among
them, and no brace stands beside the call. -/
def PlainTag (body : List Char) : Prop :=
  ∀ space name rest, name ∈ macroNames → body = space ++ name.toList ++ rest →
    BraceFree space ∧ ∃ args space', rest = '(' :: args ++ ')' :: space' ∧ '(' ∉ args ∧ ')' ∉ args ∧
      BraceFree space'

theorem search_of_plain (jinja : Jinja) (source : String)
    (plain : ∀ parts, jinja.segments source = some parts → ∀ statement body,
      Segment.tag statement body ∈ parts → PlainTag body)
    (call : Call) (next : Json → Template) (calls : jinja.render source = some (.ask call next)) :
    search source.toList = true := by
  obtain ⟨parts, statement, body, name, read, member, known, space, rest, isBody⟩ :=
    jinja.named source call next calls
  obtain ⟨free, args, space', rfl, noOpen, noClose, free'⟩ :=
    plain parts read statement body member space name rest known isBody.symm
  obtain ⟨before, after, rfl⟩ := List.append_of_mem member
  rw [search_iff, ← jinja.printed source _ read]
  refine ⟨before.flatMap Segment.source, if statement then '%' else '{', space, name, args, space',
    if statement then '%' else '}', after.flatMap Segment.source, ?_, ?_, free, known,
      noOpen, noClose, free', ?_⟩
  · rw [List.flatMap_append, List.flatMap_cons, Segment.source, ← isBody]
    simp
  · cases statement <;> simp
  · cases statement <;> simp

theorem urlParam_body_iff (context : Context) (dialect : Dialect)
    (given : context.dialect = some dialect)
    (request : Request) (addToCacheKeys : Bool) (param : String) (default : Json) :
    (∀ text key, urlParam context request addToCacheKeys param default true =
      some (.str text, key) →
        dialect.IsLiteralBody text) ↔
      ∀ value, request.queryParams param = some value → value ≠ "" →
      dialect.IsLiteralBody value := by
  constructor
  · intro bodies value found named
    refine bodies value none ?_
    rw [urlParam, found, Option.filter_some, if_pos (by simpa using named)]
  · intro bodies text key left
    rw [urlParam] at left
    cases found : (request.queryParams param).filter fun value => value ≠ "" with
    | some value =>
      rw [found] at left
      obtain ⟨same, _⟩ := Prod.mk.inj (Option.some.inj left)
      obtain ⟨known, named⟩ := Option.filter_eq_some_iff.mp found
      rw [← Json.str.inj same]
      exact bodies value known (by simpa using named)
    | none =>
      rw [found] at left
      obtain ⟨result, processed, kept⟩ := Option.bind_eq_some_iff.mp left
      obtain ⟨rfl, _⟩ := Prod.mk.inj (Option.some.inj kept)
      rw [escaped, Bool.and_true] at processed
      split at processed
      · rw [given] at processed
        dsimp only at processed
        split at processed
        · rw [← Json.str.inj (Option.some.inj processed)]
          exact dialect.escapes _
        · cases processed
      · rename_i falsy
        rw [Option.some.inj processed] at falsy
        have blank : text = "" := by simpa [Json.truthy] using falsy
        rw [blank]
        exact dialect.empty

def quoteMark : Char := Char.ofNat 39

/-- `value.replace("'", "''")` -/
def doubled (text : List Char) : List Char :=
  text.flatMap fun c => if c = quoteMark then [quoteMark, quoteMark] else [c]

def paired : List Char → Bool
  | [] => true
  | [c] => c ≠ quoteMark
  | c :: d :: rest => if c = quoteMark then d = quoteMark && paired rest else paired (d :: rest)

theorem paired_cons (c : Char) (text : List Char) (plain : c ≠ quoteMark) :
    paired (c :: text) = paired text := by
  cases text with
  | nil => simp [paired, plain]
  | cons d rest => rw [paired, if_neg plain]

theorem paired_doubled (text : List Char) : paired (doubled text) = true := by
  induction text with
  | nil => rfl
  | cons c text ih =>
    rw [doubled, List.flatMap_cons]
    by_cases quote : c = quoteMark
    · rw [if_pos quote]
      change paired (quoteMark :: quoteMark :: doubled text) = true
      simpa [paired] using ih
    · rw [if_neg quote]
      exact (paired_cons c _ quote).trans ih

def standard : Dialect where
  literalProcessor text := String.ofList (quoteMark :: (doubled text.toList ++ [quoteMark]))
  IsLiteralBody text := paired text.toList = true
  escapes text := by simpa [inner] using paired_doubled text.toList
  empty := rfl

/-- `dumps` of plain names. -/
def plainContext : Context where
  dialect := some standard
  dumps items := "[" ++ String.intercalate ", " items ++ "]"

def asking (value : String) : Request where
  queryParams param := if param = "country" then some value else none

/-- `{{ url_param(('country')) }}` -/
def nestedSource : String := "\x7b\x7b url_param(('country')) \x7d\x7d"

def country : Template :=
  .ask (.urlParam "country" .null) fun value => .done (if value = .str "DE" then "DE" else "FR")

def nestedJinja : Jinja where
  segments source :=
    if source = nestedSource then some [.tag false " url_param(('country')) ".toList] else none
  render source := if source = nestedSource then some country else none
  printed source parts read := by
    by_cases same : source = nestedSource
    · rw [if_pos same] at read
      rw [← Option.some.inj read, same]
      decide
    · rw [if_neg same] at read
      cases read
  named source call next rendered := by
    by_cases same : source = nestedSource
    · exact ⟨_, false, _, "url_param", if_pos same, List.mem_singleton_self _, by decide,
        " ".toList, "(('country')) ".toList, by decide⟩
    · rw [if_neg same] at rendered
      cases rendered

end Liteset.Sql.ExtraCacheKeys
