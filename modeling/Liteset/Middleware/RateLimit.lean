import Mathlib.Algebra.Order.Ring.Rat
import Mathlib.Tactic.Linarith
import Liteset.Lib.PyText

/-!
# Rate limits

The rule that `parse_rate_limit` reads off a setting, and the two stores of request times that
decide whether a request is within it: one in the process, one in Redis.
-/

set_option autoImplicit false

namespace Liteset.Middleware.RateLimit

open Lib

def granularitySeconds (granularity : List Char) : Option Nat :=
  match String.ofList granularity with
  | "second" | "sec" | "s" => some 1
  | "minute" | "min" | "m" => some 60
  | "hour" | "h" => some 3600
  | "day" | "d" => some 86400
  | _ => none

def isDecimal (c : Char) : Bool := (PyText.decimal c).isSome

/-- The groups of `^\s*(\d+)\s*<separator>\s*(\d+)?\s*([a-zA-Z]+)\s*$`; no character can
be of two of its parts. -/
def matchLimit (separator spec : List Char) : Option (List Char × List Char × List Char) :=
  let (count, rest) := (spec.dropWhile PyText.isspace).span isDecimal
  let rest := rest.dropWhile PyText.isspace
  if count = [] ∨ separator.isPrefixOf rest = false then none
  else
    let (multiple, rest) := ((rest.drop separator.length).dropWhile PyText.isspace).span isDecimal
    let (granularity, rest) := (rest.dropWhile PyText.isspace).span Char.isAlpha
    if granularity = [] ∨ rest.dropWhile PyText.isspace ≠ [] then none
      else some (count, multiple, granularity)

/-- `lower().rstrip("s") or "second"` -/
def granularityName (granularity : List Char) : List Char :=
  let name := ((granularity.map Char.toLower).reverse.dropWhile (· = 's')).reverse
  if name = [] then "second".toList else name

/-- The outer `none` is the error of `int` for too many digits. -/
def limitOf : List Char × List Char × List Char → Option (Option (Nat × Nat))
  | (count, multiple, granularity) =>
    match PyText.int (String.ofList count), if multiple = [] then some 1
      else PyText.int (String.ofList multiple) with
    | some count, some multiple =>
      match (granularitySeconds (granularityName granularity)).or
        (granularitySeconds (granularity.map Char.toLower)) with
      | none => some none
      | some unitSeconds =>
        if count = 0 then some none else some (some (count, unitSeconds * multiple))
    | _, _ => none

def parseRateLimit (spec : String) : Option (Option (Nat × Nat)) :=
  match matchLimit "per".toList spec.toList with
  | some groups => limitOf groups
  | none =>
    match matchLimit "/".toList spec.toList with
    | some groups => limitOf groups
    | none => some none

example : parseRateLimit " 10 per 20 seconds" = some (some (10, 20)) ∧
  parseRateLimit "5/s" = some (some (5, 1)) ∧
    parseRateLimit "1 per day" = some (some (1, 86400)) ∧
    parseRateLimit "0/hour" = some none := by decide

theorem limitOf_pos {groups : List Char × List Char × List Char} {maxRequests window : Nat}
    (parsed : limitOf groups = some (some (maxRequests, window))) : 0 < maxRequests := by
  obtain ⟨count, multiple, granularity⟩ := groups
  unfold limitOf at parsed
  dsimp only at parsed
  split at parsed
  · split at parsed
    · cases parsed
    · split at parsed
      · cases parsed
      · next some =>
        cases parsed
        exact Nat.pos_of_ne_zero some
  · cases parsed

theorem parseRateLimit_pos {spec : String} {maxRequests window : Nat}
    (parsed : parseRateLimit spec = some (some (maxRequests, window))) : 0 < maxRequests := by
  unfold parseRateLimit at parsed
  split at parsed
  · exact limitOf_pos parsed
  · split at parsed
    · exact limitOf_pos parsed
    · cases parsed

abbrev Time := ℚ

/-- `tag` is what `uuid4` adds to the member of the sorted set. -/
structure Request where
  key : String
  now : Time
  tag : Nat

structure MemoryStore where
  windows : String → Option (List Time)
  lastPurge : Time

def memoryKeyMaxIdle : Time := 3600
def memoryPurgeInterval : Time := 60

def emptyMemory : MemoryStore where
  windows := fun _ => none
  lastPurge := 0

def purgeIdleWindows (store : MemoryStore) (now : Time) : MemoryStore :=
  if now - store.lastPurge < memoryPurgeInterval then store
  else
    { windows := fun key => (store.windows key).filter fun timestamps =>
        timestamps.getLast?.any fun last => decide (now - memoryKeyMaxIdle < last)
      lastPurge := now }

def memorySlidingWindowCheck (maxRequests window : Nat) (store : MemoryStore) (request : Request) :
    MemoryStore × Int :=
  let timestamps :=
    ((store.windows request.key).getD []).dropWhile fun time => decide (time ≤ request.now - window)
  let timestamps := timestamps ++ [request.now]
  (purgeIdleWindows
    { store with
      windows := fun key => if key = request.key then some timestamps else store.windows key }
    request.now, (maxRequests : Int) - timestamps.length)

abbrev Member := Time × Nat

structure SortedSet where
  members : List (Member × Time)
  expires : Time

abbrev RedisStore := String → Option SortedSet

def emptyRedis : RedisStore := fun _ => none

def liveMembers (store : RedisStore) (key : String) (now : Time) : List (Member × Time) :=
  match store key with
  | none => []
  | some set => if set.expires < now then [] else set.members

def zremrangebyscore (members : List (Member × Time)) (low high : Time) : List (Member × Time) :=
  members.filter fun scored => decide (¬(low ≤ scored.2 ∧ scored.2 ≤ high))

def zadd (members : List (Member × Time)) (member : Member) (score : Time) : List (Member × Time) :=
  members.filter (fun scored => decide (scored.1 ≠ member)) ++ [(member, score)]

def slidingWindowCheck (maxRequests window : Nat) (store : RedisStore) (request : Request) :
    RedisStore × Int :=
  let members :=
    zremrangebyscore (liveMembers store request.key request.now) 0 (request.now - window)
  let members := zadd members (request.now, request.tag) request.now
  (fun key => if key = request.key then some ⟨members, request.now + (window + 1)⟩ else store key,
    (maxRequests : Int) - members.length)

def decisions {σ : Type} (check : σ → Request → σ × Int) : σ → List Request → List Bool
  | _, [] => []
  | store, request :: requests =>
    decide (0 ≤ (check store request).2) :: decisions check (check store request).1 requests

end Liteset.Middleware.RateLimit
