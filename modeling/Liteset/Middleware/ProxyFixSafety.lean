import Liteset.Middleware.ProxyFix

/-!
# What a client can put past the trusted proxies

Each trusted proxy adds its value to the lines of a header: it joins them into one,
extends the last one or adds a line.  Only the first line is read, so the values
are those of the proxies for every client exactly when the proxies leave one line.
-/

set_option autoImplicit false

namespace Liteset.Middleware.ProxyFix

open Liteset.Lib List

abbrev HopValue := { value : String // ',' ∉ value.toList }

inductive Hop where
  | join (value : HopValue)
  | extend (value : HopValue)
  | line (value : HopValue)

def Hop.value : Hop → HopValue
  | .join value => value
  | .extend value => value
  | .line value => value

/-- `first, second, …` -/
def commaJoin : String → List String → String
  | first, [] => first
  | first, second :: rest => commaJoin (first ++ ", " ++ second) rest

def send (lines : List String) : Hop → List String
  | .line value => lines ++ [value.1]
  | .join value =>
    match lines with
    | [] => [value.1]
    | first :: rest => [commaJoin first (rest ++ [value.1])]
  | .extend value =>
    match lines.getLast? with
    | none => [value.1]
    | some last => lines.dropLast ++ [last ++ ", " ++ value.1]

def sendAll (client : List String) (hops : List Hop) : List String := hops.foldl send client

def trusted (hops : List Hop) : Option String :=
  (hops.head?.map fun hop => PyText.strip PyText.isspace hop.value.1).bind nonblank

def collapses : Bool → Hop → Bool
  | _, .join _ => true
  | collapsed, .extend _ => collapsed
  | _, .line _ => false

/-- The proxies leave one line, whatever the client sends. -/
def OneLine (hops : List Hop) : Prop := hops = [] ∨ hops.foldl collapses false = true

def allParts (lines : List String) : List String := lines.flatMap parts

section Parts
variable {first second value : String} {lines : List String} {hops : List Hop}

theorem strip_cons_space (rest : List Char) :
    PyText.strip PyText.isspace (String.ofList (' ' :: rest))
      = PyText.strip PyText.isspace (String.ofList rest) := by
  have space : PyText.isspace ' ' = true := by decide
  simp only [PyText.strip, String.toList_ofList, dropWhile_cons_of_pos space]

@[simp] theorem parts_comma : parts (first ++ ", " ++ second) = parts first ++ parts second := by
  have texts : (first ++ ", " ++ second).toList = first.toList ++
      ',' :: (' ' :: second.toList) := by
    simp
  unfold parts
  rw [texts, splitOn_append_cons_self, map_append, splitOn_cons_eq_if_modifyHead,
    if_neg (by decide)]
  cases split : second.toList.splitOn ',' with
  | nil => exact absurd split (splitOn_ne_nil ',' _)
  | cons head rest => rw [modifyHead_cons, map_cons, map_cons, strip_cons_space]

theorem parts_of_one (one : ',' ∉ value.toList) :
    parts value = [PyText.strip PyText.isspace value] := by
  unfold parts
  rw [splitOn_eq_singleton one, map_singleton, String.ofList_toList]

theorem parts_ne_nil : parts first ≠ [] := by
  unfold parts
  simp

theorem parts_commaJoin (rest : List String) :
    parts (commaJoin first rest) = parts first ++ allParts rest := by
  induction rest generalizing first with
  | nil => simp [commaJoin, allParts]
  | cons second rest ih => rw [commaJoin, ih, parts_comma, append_assoc]; rfl

theorem allParts_send (hop : Hop) :
    allParts (send lines hop) = allParts lines ++ [PyText.strip PyText.isspace hop.value.1] := by
  have own : parts hop.value.1 = [PyText.strip PyText.isspace hop.value.1] :=
    parts_of_one hop.value.2
  rw [← own]
  cases hop with
  | line value => simp [send, allParts, Hop.value]
  | join value =>
    cases lines with
    | nil => simp [send, allParts, Hop.value]
    | cons first rest => simp [send, allParts, Hop.value, parts_commaJoin]
  | extend value =>
    cases last : lines.getLast? with
    | none => simp [send, getLast?_eq_none_iff.mp last, allParts, Hop.value]
    | some text =>
      obtain ⟨front, rfl⟩ := getLast?_eq_some_iff.mp last
      simp [send, allParts, Hop.value]

theorem allParts_sendAll : allParts (sendAll lines hops)
    = allParts lines ++ hops.map fun hop => PyText.strip PyText.isspace hop.value.1 := by
  induction hops generalizing lines with
  | nil => simp [sendAll]
  | cons hop rest ih =>
    show allParts (sendAll (send lines hop) rest) = _
    rw [ih, allParts_send, append_assoc, map_cons, singleton_append]

theorem length_send {collapsed : Bool} (hop : Hop) (one : collapsed = true → lines.length = 1) :
    collapses collapsed hop = true → (send lines hop).length = 1 := by
  cases hop with
  | line value => exact fun collapses => by cases collapses
  | join value => cases lines <;> exact fun _ => rfl
  | extend value =>
    intro already
    obtain ⟨only, rfl⟩ := length_eq_one_iff.mp (one already)
    rfl

theorem one_line {collapsed : Bool} (one : collapsed = true → lines.length = 1)
    (collapses : hops.foldl collapses collapsed = true) : (sendAll lines hops).length = 1 := by
  induction hops generalizing lines collapsed with
  | nil => exact one collapses
  | cons hop rest ih => exact ih (length_send hop one) collapses

theorem several_lines {n : Nat} {collapsed : Bool} (rest : List String)
    (several : collapsed = false → rest ≠ []) (long : n ≤ (parts first).length)
    (apart : hops.foldl collapses collapsed = false) :
    ∃ head tail, sendAll (first :: rest) hops = head :: tail ∧ tail ≠ [] ∧
    n ≤ (parts head).length := by
  induction hops generalizing first rest collapsed with
  | nil => exact ⟨first, rest, rfl, several apart, long⟩
  | cons hop hops ih =>
    cases hop with
    | line value => exact ih (rest ++ [value.1]) (by simp) long apart
    | join value =>
      refine @ih (commaJoin first (rest ++ [value.1])) true [] (by simp) ?_ apart
      rw [parts_commaJoin, length_append]
      omega
    | extend value =>
      cases last : rest.getLast? with
      | none =>
        rw [getLast?_eq_none_iff.mp last] at several ⊢
        refine @ih (first ++ ", " ++ value.1) collapsed [] several ?_ apart
        rw [parts_comma, length_append]
        omega
      | some text =>
        obtain ⟨front, rfl⟩ := getLast?_eq_some_iff.mp last
        have extended : send (first :: (front ++ [text])) (.extend value)
            = first :: (front ++ [text ++ ", " ++ value.1]) := by
          simp [send, getLast?_cons, dropLast_cons_of_ne_nil]
        show ∃ head tail, sendAll (send (first :: (front ++ [text])) (.extend value)) hops
          = head :: tail ∧ _
        rw [extended]
        exact ih (front ++ [text ++ ", " ++ value.1]) (by simp) long apart

end Parts

section Value
variable {raw : String} {client : List String} {hops : List Hop} {n : Nat}

theorem getTrustedValue_some (positive : 0 < n) : getTrustedValue (some raw) n =
    if (parts raw).length < n then none
    else nonblank (PyText.strip PyText.isspace ((parts raw).getD ((parts raw).length - n) "")) := by
  by_cases empty : raw = ""
  · subst empty
    have one : parts "" = [""] := by decide
    rw [getTrustedValue, if_pos (Or.inl rfl), one]
    by_cases few : n = 1
    · subst few
      decide
    · rw [if_pos]
      simpa using (show 1 < n by omega)
  · rw [getTrustedValue, if_neg]
    simp only [empty, false_or]
    omega

theorem getTrustedValue_of_few {lines : List String} (few : (allParts lines).length < n) :
    getTrustedValue lines.head? n = none := by
  cases lines with
  | nil => rfl
  | cons first rest =>
    have firstFew : (parts first).length < n := by
      rw [allParts, flatMap_cons, length_append] at few
      omega
    rw [head?_cons, getTrustedValue_some (Nat.zero_lt_of_lt firstFew), if_pos firstFew]

theorem getTrustedValue_of_oneLine (oneLine : OneLine hops) :
    getTrustedValue (sendAll client hops).head? hops.length = trusted hops := by
  obtain empty | collapses := oneLine
  · subst empty
    cases (sendAll client []).head? <;> simp [getTrustedValue, trusted]
  · obtain ⟨line, only⟩ :=
      length_eq_one_iff.mp (@one_line client hops false (fun h => absurd h (by decide)) collapses)
    have someHop : hops ≠ [] := by
      intro empty
      rw [empty] at collapses
      cases collapses
    obtain ⟨hop, rest, rfl⟩ := exists_cons_of_ne_nil someHop
    have values := @allParts_sendAll client (hop :: rest)
    rw [only, allParts, flatMap_singleton] at values
    have enough : ¬(parts line).length < (hop :: rest).length := by
      rw [values, length_append, length_map]
      omega
    rw [only, head?_cons, getTrustedValue_some (length_pos_of_ne_nil someHop),
      if_neg enough, values]
    simp [trusted]

structure Sendable (value : String) : Prop where
  one : ',' ∉ value.toList
  stripped : PyText.strip PyText.isspace value = value
  nonempty : value ≠ ""

def attack (value : String) (n : Nat) : List String :=
  let line := commaJoin value (List.replicate (n - 1) value)
  [line, line]

theorem parts_attack {value : String} (sendable : Sendable value) (positive : 0 < n) :
    parts (commaJoin value (List.replicate (n - 1) value)) = List.replicate n value := by
  have own : parts value = [value] := by rw [parts_of_one sendable.one, sendable.stripped]
  have copies : ∀ m, allParts (List.replicate m value) = List.replicate m value := by
    intro m
    induction m with
    | zero => rfl
    | succ m ih => rw [replicate_succ, allParts, flatMap_cons, own]; exact congrArg _ ih
  rw [parts_commaJoin, own, copies, singleton_append, ← replicate_succ]
  congr
  omega

theorem getTrustedValue_attack {value : String} (sendable : Sendable value)
    (apart : ¬OneLine hops) :
    getTrustedValue (sendAll (attack value hops.length) hops).head? hops.length = some value := by
  obtain ⟨hasHops, notOne⟩ := not_or.mp apart
  have positive : 0 < hops.length := length_pos_iff.mpr hasHops
  have copies := parts_attack sendable positive
  obtain ⟨head, tail, lines, several, long⟩ :=
    @several_lines (commaJoin value (List.replicate (hops.length - 1) value)) hops hops.length false
      [commaJoin value (List.replicate (hops.length - 1) value)] (fun _ => cons_ne_nil _ _)
      (by simp [copies]) (by simpa using notOne)
  have values := @allParts_sendAll (attack value hops.length) hops
  have doubled :
      allParts (attack value hops.length) = List.replicate (hops.length + hops.length) value := by
    simp [attack, allParts, copies, replicate_append_replicate]
  rw [doubled, show sendAll (attack value hops.length) hops = head :: tail from lines] at values
  obtain ⟨next, others, rfl⟩ := exists_cons_of_ne_nil several
  have nextSome := length_pos_iff.mpr (@parts_ne_nil next)
  have lengths := congrArg List.length values
  simp only [allParts, flatMap_cons, length_append, length_replicate,
    length_map] at lengths
  have bound : (parts head).length - hops.length < (parts head).length := by omega
  have inFront : (parts head).length - hops.length < hops.length + hops.length := by omega
  have chosen : (parts head)[(parts head).length - hops.length]? = some value := by
    have prefixes := congrArg (·[(parts head).length - hops.length]?) values
    simp only [allParts, flatMap_cons] at prefixes
    rw [getElem?_append_left bound, getElem?_append_left (by simpa using inFront),
      getElem?_replicate, if_pos inFront] at prefixes
    exact prefixes
  rw [show sendAll (attack value hops.length) hops = head :: next :: others from lines,
    head?_cons, getTrustedValue_some positive, if_neg (by omega), getD_eq_getElem?_getD,
    chosen, Option.getD_some, sendable.stripped, nonblank, if_neg sendable.nonempty]

end Value

/-- The header lines of a request are those the client sent, behind the proxies. -/
def Sent (s : Scope) (client : Forwarded → List String) (hops : Forwarded → List Hop) : Prop :=
  ∀ h : Forwarded, lines s.headers h.name = sendAll (client h) (hops h)

def everyForwarded : List Forwarded := [.xFor, .xProto, .xHost, .xPort, .xPrefix]

def request (client : Forwarded → List String) (hops : Forwarded → List Hop) : Scope where
  type := .http
  headers := everyForwarded.flatMap fun h =>
    (sendAll (client h) (hops h)).map fun line => (h.name, line)
  client := none
  scheme := ""
  server := none
  rootPath := ""

def shownIn (s : Scope) : Forwarded → String × Option Int
  | .xFor => ((s.client.map Prod.fst).getD "", none)
  | .xProto => (s.scheme, none)
  | .xHost => ((headerOf s.headers "host").getD "", none)
  | .xPort => ("", s.server.bind Prod.snd)
  | .xPrefix => (s.rootPath, none)

def shownOf (value : Option String) : Forwarded → String × Option Int
  | .xFor => (value.getD "", none)
  | .xProto => ((value.map lower).getD "", none)
  | .xHost => (value.getD "", none)
  | .xPort => ("", value.bind PyText.parseInt)
  | .xPrefix => ((value.map rstripSlash).getD "", none)

section Frame
variable (s : Scope) (value : Option String)

@[simp] theorem setRootPath_frame : (setWith setRootPath value s).client = s.client
    ∧ (setWith setRootPath value s).scheme = s.scheme
    ∧ (setWith setRootPath value s).headers = s.headers
    ∧ (setWith setRootPath value s).server = s.server := by
  cases value with
  | none => exact ⟨rfl, rfl, rfl, rfl⟩
  | some text =>
    by_cases blank : rstripSlash text = "" <;> simp [setWith, setRootPath, blank]

@[simp] theorem setPort_frame : (setWith setPort value s).client = s.client
    ∧ (setWith setPort value s).scheme = s.scheme
    ∧ (setWith setPort value s).headers = s.headers ∧ (setWith setPort value s).rootPath =
      s.rootPath := by
  cases value with
  | none => exact ⟨rfl, rfl, rfl, rfl⟩
  | some text =>
    cases parsed : PyText.parseInt text <;> simp [setWith, setPort, parsed]

@[simp] theorem setHost_frame : (setWith setHost value s).client = s.client
    ∧ (setWith setHost value s).scheme = s.scheme
    ∧ (setWith setHost value s).rootPath = s.rootPath
    ∧ ((setWith setHost value s).server = none ↔ s.server = none) := by
  cases value <;> simp [setWith, setHost]

@[simp] theorem setScheme_frame : (setWith setScheme value s).client = s.client
    ∧ (setWith setScheme value s).headers = s.headers
    ∧ (setWith setScheme value s).server = s.server ∧ (setWith setScheme value s).rootPath =
      s.rootPath := by
  cases value <;> exact ⟨rfl, rfl, rfl, rfl⟩

@[simp] theorem setClient_frame : (setWith setClient value s).scheme = s.scheme
    ∧ (setWith setClient value s).headers = s.headers
    ∧ (setWith setClient value s).server = s.server ∧ (setWith setClient value s).rootPath =
      s.rootPath := by
  cases value <;> exact ⟨rfl, rfl, rfl, rfl⟩

variable {s}

theorem client_setClient (noClient : s.client = none) :
    ((setWith setClient value s).client.map Prod.fst).getD "" = value.getD "" := by
  cases value <;> simp [setWith, setClient, noClient]

theorem scheme_setScheme (noScheme : s.scheme = "") :
    (setWith setScheme value s).scheme = (value.map lower).getD "" := by
  cases value <;> simp [setWith, setScheme, noScheme]

/-- A request without a `host` header gets the forwarded one. -/
theorem headerOf_setHost (noHost : lines s.headers "host" = []) :
    (headerOf (setWith setHost value s).headers "host").getD "" = value.getD "" := by
  have none : ∀ header ∈ s.headers, header.1 ≠ "host" := by
    intro header member same
    have inLines : header.2 ∈ lines s.headers "host" :=
      mem_map_of_mem (mem_filter.mpr ⟨member, by simpa using same⟩)
    rw [noHost] at inLines
    cases inLines
  cases value with
  | none => simp [setWith, headerOf, noHost]
  | some text =>
    have kept : s.headers.map (fun header => if header.1 = "host" then ("host", text) else header)
        = s.headers := by
      refine (map_congr_left fun header member => if_neg (none header member)).trans ?_
      exact map_id' _
    have absent : (s.headers.any fun header => header.1 = "host") = false := by
      simpa using none
    simp only [setWith, setHost, kept, absent, headerOf]
    unfold lines at noHost ⊢
    simp [noHost]

theorem server_setPort (noServer : s.server = none) :
    (setWith setPort value s).server.bind Prod.snd = value.bind PyText.parseInt := by
  cases value with
  | none => simp [setWith, noServer]
  | some text =>
    unfold setWith setPort
    cases parsed : PyText.parseInt text <;> simp [noServer, parsed]

theorem rootPath_setRootPath (root : s.rootPath = "") :
    (setWith setRootPath value s).rootPath = (value.map rstripSlash).getD "" := by
  cases value with
  | none => exact root
  | some text =>
    by_cases blank : rstripSlash text = "" <;> simp [setWith, setRootPath, blank, root]

end Frame

section Request
variable {client : Forwarded → List String} {hops : Forwarded → List Hop}

theorem lines_request (name : String) : lines (request client hops).headers name
    = everyForwarded.flatMap fun h => if h.name = name then sendAll (client h) (hops h)
    else [] := by
  unfold lines request
  rw [filter_flatMap, map_flatMap]
  refine flatMap_congr fun h _ => ?_
  by_cases same : h.name = name <;> simp [filter_map, Function.comp_def, same]

theorem sent_request : Sent (request client hops) client hops := by
  intro h
  rw [lines_request]
  cases h <;> simp [everyForwarded, Forwarded.name]

theorem shownIn_applied (value : Forwarded → Option String) (h : Forwarded) :
    shownIn (applied value (request client hops)) h = shownOf (value h) h := by
  have noHost : lines (request client hops).headers "host" = [] := by
    rw [lines_request]
    simp [everyForwarded, Forwarded.name]
  have noServer : (request client hops).server = none := rfl
  unfold applied shownIn shownOf
  cases h with
  | xFor => simp [client_setClient, request]
  | xProto => simp [scheme_setScheme, request]
  | xHost => simp [headerOf_setHost, noHost]
  | xPort => simp [server_setPort, noServer]
  | xPrefix => simp [rootPath_setRootPath, request]

end Request

/-- The scope gets the values of the trusted proxies for every client, and none from a
header with fewer values than proxies, exactly when the proxies leave one line of each
header. -/
theorem trusted_for_every_client_iff (hops : Forwarded → List Hop) :
    ((∀ (s : Scope) (client : Forwarded → List String), s.type ≠ .lifespan → Sent s client hops →
        handle (fun h => (hops h).length) s = applied (fun h => trusted (hops h)) s)
      ∧ ∀ (s : Scope) (x : Forwarded → Nat) (h : Forwarded),
        (allParts (lines s.headers h.name)).length < x h →
          getTrustedValue (headerOf s.headers h.name) (x h) = none) ↔ ∀ h, OneLine (hops h) := by
  constructor
  · rintro ⟨forEvery, _⟩ h
    have isHttp : ∀ client, (request client hops).type ≠ .lifespan := fun _ same => by cases same
    by_contra apart
    have chosen : ∀ value, Sendable value →
        shownOf (trusted (hops h)) h = shownOf (some value) h := by
      intro value sendable
      let client : Forwarded → List String :=
        fun g => if g = h then attack value (hops h).length else []
      have handled := forEvery (request client hops) client (isHttp client) sent_request
      rw [handle, if_neg (isHttp client)] at handled
      have shown := congrArg (shownIn · h) handled
      simp only [shownIn_applied] at shown
      have own : client h = attack value (hops h).length := if_pos rfl
      rw [headerOf, sent_request h, own, getTrustedValue_attack sendable apart] at shown
      exact shown.symm
    have one := chosen "1" ⟨by decide, by decide, by decide⟩
    have two := chosen "2" ⟨by decide, by decide, by decide⟩
    rw [one] at two
    cases h <;> exact absurd two (by decide)
  · intro oneLine
    refine ⟨?_, fun s x h few => getTrustedValue_of_few few⟩
    intro s client isRequest sent
    rw [handle, if_neg isRequest]
    refine congrArg (applied · s) (funext fun h => ?_)
    rw [headerOf, sent h, getTrustedValue_of_oneLine (oneLine h)]

/-- A client that sends the header before a proxy adds a line of its own. -/
theorem spoofed_client :
    ¬∀ (hops : Forwarded → List Hop) (s : Scope) (client : Forwarded → List String),
      s.type ≠ .lifespan → Sent s client hops →
        handle (fun h => (hops h).length) s = applied (fun h => trusted (hops h)) s := by
  intro forEvery
  let hops : Forwarded → List Hop := fun _ => [.line ⟨"2", by decide⟩]
  have handled :=
    forEvery hops (request (fun _ => ["1"]) hops) (fun _ => ["1"]) (by decide) sent_request
  exact absurd (congrArg Scope.client handled) (by decide)

end Liteset.Middleware.ProxyFix
