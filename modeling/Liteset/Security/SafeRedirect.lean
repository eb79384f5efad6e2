import Mathlib.Data.List.DropRight
import Mathlib.Data.List.TakeDrop
import Mathlib.Data.List.TakeWhile

/-!
# Redirects after a login

`_get_safe_redirect` reads the target with `urlparse`; a browser reads it by the rules of the
WHATWG, for which a backslash is a slash.
-/

set_option autoImplicit false

namespace Liteset.Security.SafeRedirect

open List

local instance instLawfulBEqText : LawfulBEq (List Char) := inferInstance

abbrev Text := List Char

def isC0OrSpace (c : Char) : Bool := c.toNat ≤ 32

def isTabOrNewline (c : Char) : Bool := c = '\t' || c = '\n' || c = '\r'

def isSchemeChar (c : Char) : Bool := c.isAlphanum || c = '+' || c = '-' || c = '.'

def schemeOf (text : Text) : Option (Text × Text) :=
  match text.span (· ≠ ':') with
  | (first :: name, _ :: rest) =>
    if first.isAlpha && name.all isSchemeChar then some ((first :: name).map Char.toLower, rest)
      else none
  | _ => none

/-- What `urlsplit` leaves of the text before it looks at it. -/
def splitText (url : Text) : Text := (url.dropWhile isC0OrSpace).filter fun c => !isTabOrNewline c

def isNetlocChar (c : Char) : Bool := c ≠ '/' && c ≠ '?' && c ≠ '#'

def schemeAndRest (url : Text) : Text × Text := (schemeOf (splitText url)).getD ([], splitText url)

def netlocOf (url : Text) : Text :=
  if "//".toList.isPrefixOf (schemeAndRest url).2
    then ((schemeAndRest url).2.drop 2).takeWhile isNetlocChar else []

section Check
variable (isOther : Char → Bool) (invalidNetloc : Text → Bool)

/-- Scheme and netloc of `urlparse`, which raises an error for brackets and for what the
normal form turns into delimiters. -/
def urlparse (url : Text) : Option (Text × Text) :=
  if netlocOf url ≠ [] ∧ invalidNetloc (netlocOf url) = true then none
    else some ((schemeAndRest url).1, netlocOf url)

/-- `isOther` are the characters of a category with `C`. -/
def isSafeRedirectUrl (url requestHost : Text) : Bool :=
  match url with
  | [] => false
  | first :: _ =>
    if "///".toList.isPrefixOf url then false
    else
      match urlparse invalidNetloc url with
      | none => false
      | some (scheme, netloc) =>
        if netloc = [] ∧ scheme ≠ [] then false
        else if isOther first then false
        else if netloc ≠ [] ∧ netloc ≠ requestHost then false
        else scheme = [] || scheme = "http".toList || scheme = "https".toList

def getSafeRedirect (url requestHost : Text) : Text :=
  if isSafeRedirectUrl isOther invalidNetloc url requestHost then url else ['/']

end Check

def isSlash (c : Char) : Bool := c = '/' || c = '\\'

def isAuthorityChar (c : Char) : Bool := isNetlocChar c && c ≠ '\\'

def browserText (url : Text) : Text :=
  ((url.dropWhile isC0OrSpace).rdropWhile isC0OrSpace).filter fun c => !isTabOrNewline c

def authorityOf (text : Text) : Text := (text.dropWhile isSlash).takeWhile isAuthorityChar

def startsWithTwoSlashes : Text → Bool
  | first :: second :: _ => isSlash first && isSlash second
  | _ => false

section Browser
variable {Host : Type} (hostOf : Text → Option Host)

/-- The host of the URL against a page of `requestHost`; `hostOf` reads an authority,
`none` being a failure. A URL of a scheme that is not special has none of these hosts. -/
def resolvedHost (baseScheme requestHost url : Text) : Option Host :=
  match schemeOf (browserText url) with
  | none =>
    if startsWithTwoSlashes (browserText url) then hostOf (authorityOf (browserText url))
      else hostOf requestHost
  | some (scheme, rest) =>
    if scheme ∈ ["http".toList, "https".toList, "ws".toList, "wss".toList, "ftp".toList] then
      if scheme = baseScheme ∧ startsWithTwoSlashes rest = false then hostOf requestHost
        else hostOf (authorityOf rest)
    else none

end Browser

/-- A host that a request names: no spaces, controls or backslashes. -/
def RequestHost (requestHost : Text) : Prop := ∀ c ∈ requestHost, isC0OrSpace c = false ∧ c ≠ '\\'

section Texts
variable {text tail url : Text}

theorem splitText_eq (url : Text) :
    ∃ tail, splitText url = browserText url ++ tail ∧ ∀ c ∈ tail, isC0OrSpace c = true := by
  refine ⟨((url.dropWhile isC0OrSpace).rtakeWhile isC0OrSpace).filter fun c => !isTabOrNewline c,
    ?_, fun c member => ?_⟩
  · rw [browserText, ← filter_append, rdropWhile, rtakeWhile, ← reverse_append,
      takeWhile_append_dropWhile, reverse_reverse]
    rfl
  · exact mem_rtakeWhile_imp (mem_filter.mp member).1

theorem schemeOf_append (stripped : ∀ c ∈ tail, isC0OrSpace c = true) :
    schemeOf (text ++ tail) = (schemeOf text).map fun scheme => (scheme.1, scheme.2 ++ tail) := by
  have noColon : ∀ c ∈ tail, decide (c ≠ ':') = true := by
    intro c member
    rw [decide_eq_true_iff]
    rintro rfl
    exact absurd (stripped _ member) (by decide)
  unfold schemeOf
  rw [span_eq_takeWhile_dropWhile, span_eq_takeWhile_dropWhile, dropWhile_append, takeWhile_append]
  cases behind : text.dropWhile (fun c => decide (c ≠ ':')) with
  | nil =>
    rw [dropWhile_eq_nil_iff.mpr noColon]
    simp
  | cons colon rest =>
    have inside : ¬(text.takeWhile (fun c => decide (c ≠ ':'))).length = text.length := by
      have whole := congrArg List.length
        (takeWhile_append_dropWhile (p := fun c => decide (c ≠ ':')) (l := text))
      rw [length_append, behind, length_cons] at whole
      omega
    rw [if_neg inside]
    cases text.takeWhile (fun c => decide (c ≠ ':')) with
    | nil => rfl
    | cons first name =>
      simp only [isEmpty_cons, Bool.false_eq_true, if_false, cons_append]
      split <;> rfl

theorem authorityOf_host {host after : Text} (valid : RequestHost host) (some : host ≠ [])
    (plain : ∀ c ∈ host, isNetlocChar c = true)
    (delimited : ∀ c, after.head? = .some c → isNetlocChar c = false)
    (stripped : ∀ c ∈ tail, isC0OrSpace c = true)
    (same : text ++ tail = '/' :: '/' :: (host ++ after)) :
    startsWithTwoSlashes text = true ∧ authorityOf text = host := by
  obtain ⟨front, isText, isAfter⟩ :
    ∃ front, text = '/' :: '/' :: (host ++ front) ∧ after = front ++ tail := by
    obtain ⟨more, isWhole, isTail⟩ | ⟨more, isText, isAfter⟩ :=
      append_eq_append_iff.mp (same.trans (append_assoc ['/', '/'] host after).symm)
    · obtain rfl | ⟨pre, last, rfl⟩ := eq_nil_or_concat' more
      · exact ⟨[], by simpa using isWhole.symm, by simpa using isTail.symm⟩
      · -- the last character of the host would be stripped
        have isLast := congrArg getLast? isWhole
        rw [← append_assoc, getLast?_concat, getLast?_append_of_ne_nil _ some] at isLast
        have inTail : last ∈ tail := by
          rw [isTail]
          simp
        have kept := (valid last (mem_of_getLast? isLast)).1
        rw [stripped last inTail] at kept
        cases kept
    · exact ⟨more, by simpa using isText, isAfter⟩
  subst isText
  refine ⟨rfl, ?_⟩
  have authority : ∀ c ∈ host, isAuthorityChar c = true := fun c member => by
    simp [isAuthorityChar, plain c member, (valid c member).2]
  obtain ⟨first, others, rfl⟩ := exists_cons_of_ne_nil some
  have noSlash : isSlash first = false := by
    have isPlain := plain first mem_cons_self
    have notBack := (valid first mem_cons_self).2
    simp [isNetlocChar] at isPlain
    simp [isSlash, isPlain, notBack]
  have ends : front.takeWhile isAuthorityChar = [] := by
    cases front with
    | nil => rfl
    | cons c front =>
      have stop := delimited c (by rw [isAfter]; rfl)
      rw [takeWhile_cons, if_neg (by simp [isAuthorityChar, stop])]
  have begins : ('/' :: '/' :: (first :: others ++ front)).dropWhile isSlash = first :: others ++
      front := by
    rw [dropWhile_cons, if_pos (by decide), dropWhile_cons, if_pos (by decide), cons_append,
      dropWhile_cons, noSlash]
    rfl
  rw [authorityOf, begins, takeWhile_append_of_pos authority, ends, append_nil]

end Texts

section Redirect
variable {Host : Type} {isOther : Char → Bool} {invalidNetloc : Text → Bool}
    {hostOf : Text → Option Host}
  {baseScheme requestHost url : Text}

/-- What is accepted has no scheme and no netloc, or the netloc of the request, of a page. -/
theorem accepted_cases (accepted : isSafeRedirectUrl isOther invalidNetloc url requestHost = true) :
    ((schemeAndRest url).1 = [] ∧ netlocOf url = []) ∨
    (netlocOf url ≠ [] ∧ netlocOf url = requestHost ∧
      ((schemeAndRest url).1 = [] ∨ (schemeAndRest url).1 ∈ ["http".toList, "https".toList])) := by
  cases isUrl : url with
  | nil =>
    rw [isUrl] at accepted
    cases accepted
  | cons first text =>
    rw [isUrl, isSafeRedirectUrl, ← isUrl] at accepted
    rw [← isUrl]
    clear isUrl
    split at accepted
    · cases accepted
    · split at accepted
      · cases accepted
      · next parsed =>
        unfold urlparse at parsed
        split at parsed
        · cases parsed
        · cases parsed
          split at accepted
          · cases accepted
          · next schemeWithout =>
            split at accepted
            · cases accepted
            · split at accepted
              · cases accepted
              · next foreign =>
                by_cases empty : netlocOf url = []
                · refine .inl ⟨?_, empty⟩
                  by_contra named
                  exact schemeWithout ⟨empty, named⟩
                · refine .inr ⟨empty, ?_, by simpa [or_assoc] using accepted⟩
                  by_contra other
                  exact foreign ⟨empty, other⟩

theorem no_scheme (none : (schemeAndRest url).1 = []) :
    schemeOf (browserText url) = .none ∧ (schemeAndRest url).2 = splitText url := by
  obtain ⟨tail, same, stripped⟩ := splitText_eq url
  unfold schemeAndRest at none ⊢
  rw [same, schemeOf_append stripped] at none ⊢
  cases scheme : schemeOf (browserText url) with
  | none => exact ⟨rfl, rfl⟩
  | some pair =>
    rw [scheme] at none
    unfold schemeOf at scheme
    split at scheme
    · split at scheme
      · cases scheme
        cases none
      · cases scheme
    · cases scheme

/-- A redirect stays on the host of the request, exactly when it is refused, `urlparse`
reads a netloc, it does not begin with two slashes or backslashes, or what is behind
these has the host of the request. -/
theorem redirect_stays_iff (valid : RequestHost requestHost) :
    resolvedHost hostOf baseScheme requestHost
      (getSafeRedirect isOther invalidNetloc url requestHost) = hostOf requestHost ↔
      isSafeRedirectUrl isOther invalidNetloc url requestHost = false ∨ netlocOf url ≠ [] ∨
      startsWithTwoSlashes (browserText url) = false ∨ hostOf (authorityOf (browserText url)) =
        hostOf requestHost := by
  cases accepted : isSafeRedirectUrl isOther invalidNetloc url requestHost with
  | false =>
    have root : getSafeRedirect isOther invalidNetloc url requestHost = ['/'] := by
      simp [getSafeRedirect, accepted]
    exact iff_of_true (by rw [root]; rfl) (.inl rfl)
  | true =>
    have same : getSafeRedirect isOther invalidNetloc url requestHost = url := by
      simp [getSafeRedirect, accepted]
    rw [same]
    obtain ⟨tail, isSplit, stripped⟩ := splitText_eq url
    obtain ⟨unnamed, empty⟩ | ⟨some, isHost, scheme⟩ := accepted_cases accepted
    · rw [resolvedHost, (no_scheme unnamed).1]
      cases startsWithTwoSlashes (browserText url) with
      | false => simp
      | true => simp [empty]
    · refine iff_of_true ?_ (.inr (.inl some))
      -- `urlparse` reads the host of the request behind two slashes
      have reads : ∀ rest, (schemeAndRest url).2 = rest ++ tail →
          startsWithTwoSlashes rest = true ∧ authorityOf rest = requestHost := by
        intro rest isRest
        have isNetloc := isHost
        rw [netlocOf, isRest] at isNetloc
        split at isNetloc
        · next slashes =>
          obtain ⟨behind, isBehind⟩ := isPrefixOf_iff_prefix.mp slashes
          rw [← isBehind] at isNetloc
          have whole := takeWhile_append_dropWhile (p := isNetlocChar) (l := behind)
          rw [show behind.takeWhile isNetlocChar = requestHost from isNetloc] at whole
          refine authorityOf_host valid (isHost ▸ some) ?_ ?_ stripped
            (isBehind.symm.trans (by rw [whole]; rfl))
          · exact fun c member =>
              mem_takeWhile_imp (p := isNetlocChar) (l := behind) (isNetloc ▸ member)
          · intro c isHead
            have stop := head?_dropWhile_not isNetlocChar behind
            rw [isHead] at stop
            simpa using stop
        · exact absurd (isHost.trans isNetloc.symm) some
      by_cases unnamed : (schemeAndRest url).1 = []
      · obtain ⟨noScheme, isText⟩ := no_scheme unnamed
        obtain ⟨two, isAuthority⟩ := reads (browserText url) (isText.trans isSplit)
        rw [resolvedHost, noScheme]
        simp [two, isAuthority]
      · have named := scheme.resolve_left unnamed
        unfold schemeAndRest at named reads unnamed
        rw [isSplit, schemeOf_append stripped] at named reads unnamed
        cases found : schemeOf (browserText url) with
        | none => rw [found] at unnamed; exact absurd rfl unnamed
        | some pair =>
          rw [found] at named reads
          obtain ⟨two, isAuthority⟩ := reads pair.2 rfl
          have special :
              pair.1 ∈ ["http".toList, "https".toList, "ws".toList, "wss".toList,
                "ftp".toList] := by
            have page : pair.1 = "http".toList ∨ pair.1 = "https".toList := by simpa using named
            obtain page | page := page
            · rw [page]
              decide
            · rw [page]
              decide
          rw [resolvedHost, found]
          simp only [if_pos special, two, Bool.true_eq_false, and_false, if_false, isAuthority]

def isControl (c : Char) : Bool := c.toNat < 32 || (127 ≤ c.toNat && c.toNat < 160)

theorem same_host_kept : resolvedHost some "https".toList "example.com".toList
      (getSafeRedirect isControl (fun _ => false) "//example.com/x".toList "example.com".toList) =
        some "example.com".toList ↔
    isSafeRedirectUrl isControl
      (fun _ => false) "//example.com/x".toList "example.com".toList = false ∨
      netlocOf "//example.com/x".toList ≠ [] ∨
      startsWithTwoSlashes (browserText "//example.com/x".toList) = false ∨
      some (authorityOf (browserText "//example.com/x".toList)) = some "example.com".toList :=
  redirect_stays_iff (forall_iff_forall_mem.mp (by decide))

/-- A browser takes a backslash for a slash, and the check does not. -/
theorem backslash_leaves :
    isSafeRedirectUrl isControl (fun _ => false) "/\\evil.com".toList "example.com".toList = true ∧
    resolvedHost some "https".toList "example.com".toList
      (getSafeRedirect isControl (fun _ => false) "/\\evil.com".toList "example.com".toList) =
        some "evil.com".toList ∧
    resolvedHost some "https".toList "example.com".toList
      (getSafeRedirect isControl (fun _ => false) "/\\evil.com".toList "example.com".toList) ≠
        some "example.com".toList := by
  decide

end Redirect

end Liteset.Security.SafeRedirect
