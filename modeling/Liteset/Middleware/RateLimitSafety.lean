import Mathlib.Data.List.Induction
import Liteset.Middleware.RateLimit

/-!
# When the two rate limiters agree

Both stores are compared with a window that slides over the requests of a key.  The store in the
process forgets keys that were idle for an hour, so it agrees for windows up to an hour only.
-/

set_option autoImplicit false

namespace Liteset.Middleware.RateLimit

open List

/-- The requests of a key that count at `now`. -/
def recent (window : Nat) (now : Time) (key : String) (history : List Request) : List Request :=
  history.filter fun request => decide (request.key = key ∧ now - window < request.now)

def slidingDecisions (maxRequests window : Nat) : List Request → List Request → List Bool
  | _, [] => []
  | history, request :: requests =>
    decide ((recent window request.now request.key history).length + 1 ≤ maxRequests) ::
      slidingDecisions maxRequests window (history ++ [request]) requests

structure Arrivals (requests : List Request) : Prop where
  clock : ∀ request ∈ requests, 0 ≤ request.now
  ordered : requests.Pairwise fun earlier later => earlier.now ≤ later.now
  distinct : requests.Pairwise fun one other => one.key = other.key →
    (one.now, one.tag) ≠ (other.now, other.tag)

def acceptedIn (inside : Time → Bool) (key : String) (requests : List Request)
    (accepted : List Bool) : List (Request × Bool) :=
  (requests.zip accepted).filter fun pair => pair.2 && decide (pair.1.key = key) &&
    inside pair.1.now

def Limited (maxRequests window : Nat) (requests : List Request) (accepted : List Bool) : Prop :=
  ∀ (start : Time) (key : String),
    (acceptedIn (fun time => decide (start ≤ time ∧ time < start + window)) key requests
      accepted).length ≤ maxRequests ∧
    (acceptedIn (fun time => decide (start < time ∧ time ≤ start + window)) key requests
      accepted).length ≤ maxRequests

/-- For all arrivals, the stores decide alike, and within the limit. -/
def ExactAlike (maxRequests window : Nat) : Prop :=
  ∀ requests, Arrivals requests →
    decisions (memorySlidingWindowCheck maxRequests window) emptyMemory requests =
      decisions (slidingWindowCheck maxRequests window) emptyRedis requests ∧
    Limited maxRequests window requests
      (decisions (memorySlidingWindowCheck maxRequests window) emptyMemory requests) ∧
    Limited maxRequests window requests
      (decisions (slidingWindowCheck maxRequests window) emptyRedis requests)

section Window
variable {maxRequests window : Nat} {history requests : List Request} {request : Request}

theorem Arrivals.front {later : List Request} (arrivals : Arrivals (history ++ later)) :
    Arrivals history :=
  ⟨fun r member => arrivals.clock r (mem_append_left _ member),
    (pairwise_append.mp arrivals.ordered).1,
    (pairwise_append.mp arrivals.distinct).1⟩

theorem Arrivals.le_now (arrivals : Arrivals (history ++ [request])) :
    ∀ r ∈ history, r.now ≤ request.now :=
  fun r member => (pairwise_append.mp arrivals.ordered).2.2 r member request (mem_singleton_self _)

theorem recent_append {now later : Time} {key : String} (laterTime : now ≤ later) :
    recent window later key (history ++ [request]) =
      (recent window now key history).filter (fun r => decide (later - window < r.now)) ++
        recent window later key [request] := by
  rw [recent, filter_append, recent, recent, filter_filter]
  congr 1
  refine filter_congr fun r _ => ?_
  by_cases inside : later - window < r.now
  · have also : now - window < r.now := by linarith
    simp [inside, also]
  · simp [inside]

theorem slidingDecisions_append (requests : List Request) : ∀ history,
    slidingDecisions maxRequests window history (requests ++ [request]) =
      slidingDecisions maxRequests window history requests ++
        [decide ((recent window request.now request.key (history ++ requests)).length + 1 ≤
          maxRequests)] := by
  induction requests with
  | nil =>
    intro history
    rw [append_nil]
    rfl
  | cons first requests ih =>
    intro history
    rw [cons_append, slidingDecisions, slidingDecisions, ih, append_assoc, singleton_append,
      cons_append]

theorem slidingDecisions_length (requests : List Request) : ∀ history,
    (slidingDecisions maxRequests window history requests).length = requests.length := by
  induction requests with
  | nil => exact fun _ => rfl
  | cons first requests ih => exact fun history => congrArg Nat.succ (ih _)

/-- Where any two times of a kind are less than the window apart, not too many requests
of it are accepted. -/
theorem accepted_le {inside : Time → Bool}
    (narrow : ∀ a b, inside a = true → inside b = true → b - window < a) (key : String)
    (requests : List Request) :
    (acceptedIn inside key requests (slidingDecisions maxRequests window [] requests)).length ≤
      maxRequests := by
  induction requests using reverseRecOn with
  | nil => exact Nat.zero_le _
  | append_singleton requests request ih =>
    rw [slidingDecisions_append, nil_append, acceptedIn,
      zip_append (slidingDecisions_length requests []).symm, filter_append, length_append]
    change (acceptedIn inside key requests _).length + _ ≤ _
    by_cases counts :
      decide ((recent window request.now request.key requests).length + 1 ≤ maxRequests) = true ∧
        request.key = key ∧ inside request.now = true
    · -- all that is accepted in the interval is in the window of the last of it
      obtain ⟨within, rfl, isInside⟩ := counts
      have inWindow :
        (acceptedIn inside request.key requests
          (slidingDecisions maxRequests window [] requests)).length ≤
          (recent window request.now request.key requests).length := by
        have alone : recent window request.now request.key requests = ((requests.zip
            (slidingDecisions maxRequests window [] requests)).map Prod.fst).filter fun r =>
              decide (r.key = request.key ∧ request.now - window < r.now) := by
          rw [map_fst_zip (slidingDecisions_length requests []).ge]
          rfl
        rw [alone, acceptedIn, ← countP_eq_length_filter, ← countP_eq_length_filter, countP_map]
        refine countP_mono_left fun pair _ kept => ?_
        simp only [Bool.and_eq_true, decide_eq_true_eq, Function.comp_apply] at kept ⊢
        exact ⟨kept.1.2, narrow _ _ kept.2 isInside⟩
      have bound := of_decide_eq_true within
      refine le_trans (Nat.add_le_add inWindow (length_filter_le _ _)) bound
    · have none :
        ([request].zip
          [decide ((recent window request.now request.key requests).length + 1 ≤
          maxRequests)]).filter
          (fun pair => pair.2 && decide (pair.1.key = key) && inside pair.1.now) = [] := by
        refine filter_eq_nil_iff.mpr fun pair member kept => counts ?_
        obtain rfl := mem_singleton.mp member
        simpa [and_assoc] using kept
      rw [none]
      exact ih

theorem decisions_of_counts {σ : Type} {check : σ → Request → σ × Int}
    (Refines : List Request → σ → Prop)
    (step : ∀ history store request, Refines history store → Arrivals (history ++ [request]) →
      (check store request).2 =
        (maxRequests : Int) - ((recent window request.now request.key history).length + 1 : Nat) ∧
        Refines (history ++ [request]) (check store request).1) (requests : List Request) :
    ∀ history store, Refines history store → Arrivals (history ++ requests) →
      decisions check store requests = slidingDecisions maxRequests window history requests := by
  induction requests with
  | nil => exact fun _ _ _ _ => rfl
  | cons request requests ih =>
    intro history store refines arrivals
    have same : history ++ request :: requests = (history ++ [request]) ++ requests := by simp
    rw [same] at arrivals
    obtain ⟨remaining, after⟩ := step history store request refines arrivals.front
    rw [decisions, slidingDecisions, ih _ _ after arrivals, remaining]
    congr 1
    exact decide_eq_decide.mpr (by omega)

end Window

section Memory
variable {maxRequests window : Nat} {history : List Request} {store : MemoryStore}
    {request : Request}

def timestampsOf (store : MemoryStore) (key : String) : List Time := (store.windows key).getD []

structure MemoryRefines (window : Nat) (history : List Request) (store : MemoryStore) : Prop where
  sorted : ∀ key, (timestampsOf store key).Pairwise (· ≤ ·)
  known : ∀ key, ∀ time ∈ timestampsOf store key, ∃ r ∈ history, r.now = time
  counts : ∀ key now, (∀ r ∈ history, r.now ≤ now) →
    (timestampsOf store key).filter (fun time => decide (now - window < time)) =
      (recent window now key history).map Request.now

theorem dropWhile_eq_filter (bound : Time) {times : List Time} (sorted : times.Pairwise (· ≤ ·)) :
    times.dropWhile (fun time => decide (time ≤ bound)) = times.filter fun time =>
      decide (bound < time) := by
  induction times with
  | nil => rfl
  | cons time times ih =>
    obtain ⟨least, rest⟩ := pairwise_cons.mp sorted
    by_cases old : time ≤ bound
    · rw [dropWhile_cons, if_pos (by simpa using old), ih rest, filter_cons,
        if_neg (by simpa using old)]
    · rw [dropWhile_cons, if_neg (by simpa using old), eq_comm, filter_eq_self]
      intro other member
      rw [decide_eq_true_iff]
      obtain rfl | later := mem_cons.mp member
      · exact not_le.mp old
      · exact lt_of_lt_of_le (not_le.mp old) (least other later)

theorem timestampsOf_purge (now : Time) (key : String)
    (sorted : (timestampsOf store key).Pairwise (· ≤ ·)) :
    timestampsOf (purgeIdleWindows store now) key = timestampsOf store key ∨
    (timestampsOf (purgeIdleWindows store now) key = [] ∧ ∀ time ∈ timestampsOf store key,
      time ≤ now - memoryKeyMaxIdle) := by
  unfold purgeIdleWindows
  split
  · exact .inl rfl
  unfold timestampsOf at sorted ⊢
  cases held : store.windows key with
  | none => exact .inl (by simp [held])
  | some times =>
    by_cases fresh : (times.getLast?.any fun last => decide (now - memoryKeyMaxIdle < last)) = true
    · exact .inl (by simp [held, Option.filter, fresh])
    · refine .inr ⟨by simp [held, Option.filter, fresh], ?_⟩
      intro time member
      rw [held, Option.getD_some] at sorted
      rw [Option.getD_some] at member
      obtain ⟨front, last, rfl⟩ := eq_nil_or_concat' times |>.resolve_left (ne_nil_of_mem member)
      have isOld : last ≤ now - memoryKeyMaxIdle := by simpa using fresh
      obtain before | isLast := mem_append.mp member
      · exact le_trans
          ((pairwise_append.mp sorted).2.2 time before last (mem_singleton_self _)) isOld
      · exact mem_singleton.mp isLast ▸ isOld

theorem MemoryRefines.purge (hour : window ≤ 3600) (refines : MemoryRefines window history store)
    {now : Time}
    (reached : ∃ r ∈ history, r.now = now) :
    MemoryRefines window history (purgeIdleWindows store now) := by
  have purged := fun key => timestampsOf_purge now key (refines.sorted key)
  refine ⟨fun key => ?_, fun key time member => ?_, fun key later all => ?_⟩
  · obtain same | ⟨none, _⟩ := purged key
    · exact same ▸ refines.sorted key
    · exact none ▸ List.Pairwise.nil
  · obtain same | ⟨none, _⟩ := purged key
    · exact refines.known key time (same ▸ member)
    · exact absurd (none ▸ member) not_mem_nil
  · rw [← refines.counts key later all]
    obtain same | ⟨none, old⟩ := purged key
    · rw [same]
    · rw [none, filter_nil, eq_comm, filter_eq_nil_iff]
      intro time member inWindow
      obtain ⟨r, isRequest, rfl⟩ := reached
      have notBefore := all r isRequest
      have isOld := old time member
      have short : (window : Time) ≤ 3600 := by exact_mod_cast hour
      have isIn : later - window < time := by simpa using inWindow
      rw [memoryKeyMaxIdle] at isOld
      linarith

def recorded (window : Nat) (store : MemoryStore) (request : Request) : MemoryStore :=
  { store with
    windows := fun key =>
      if key = request.key then
        some ((timestampsOf store request.key).dropWhile
          (fun time => decide (time ≤ request.now - window)) ++ [request.now])
      else store.windows key }

theorem timestampsOf_recorded (refines : MemoryRefines window history store)
    (arrivals : Arrivals (history ++ [request]))
    (key : String) : timestampsOf (recorded window store request) key = if key = request.key then
      (recent window request.now request.key history).map Request.now ++ [request.now]
      else timestampsOf store key := by
  rw [← refines.counts request.key request.now arrivals.le_now,
    ← dropWhile_eq_filter _ (refines.sorted request.key)]
  unfold recorded timestampsOf
  dsimp only
  split <;> rfl

theorem recorded_refines (refines : MemoryRefines window history store)
    (arrivals : Arrivals (history ++ [request])) :
    MemoryRefines window (history ++ [request]) (recorded window store request) := by
  have entries := timestampsOf_recorded refines arrivals
  have known : ∀ key, ∀ time ∈ timestampsOf (recorded window store request) key,
      ∃ r ∈ history ++ [request], r.now = time := by
    intro key time member
    rw [entries] at member
    split at member
    · obtain old | isNow := mem_append.mp member
      · obtain ⟨r, inside, rfl⟩ := mem_map.mp old
        exact ⟨r, mem_append_left _ (mem_filter.mp inside).1, rfl⟩
      · exact ⟨request, mem_append_right _ (mem_singleton_self _), (mem_singleton.mp isNow).symm⟩
    · obtain ⟨r, inside, rfl⟩ := refines.known key time member
      exact ⟨r, mem_append_left _ inside, rfl⟩
  refine ⟨fun key => ?_, known, fun key later all => ?_⟩
  · rw [entries]
    split
    · refine pairwise_append.mpr ⟨?_, pairwise_singleton _ _, ?_⟩
      · exact pairwise_map.mpr (arrivals.front.ordered.filter _)
      · intro time member other isNow
        obtain ⟨r, inside, rfl⟩ := mem_map.mp member
        rw [mem_singleton.mp isNow]
        exact arrivals.le_now r (mem_filter.mp inside).1
    · exact refines.sorted key
  · have laterTime := all request (mem_append_right _ (mem_singleton_self _))
    rw [entries]
    split
    · next same =>
      subst same
      rw [recent_append laterTime, filter_append, map_append, filter_map]
      congr 1
      rw [recent, filter_singleton, filter_singleton]
      by_cases inside : later - window < request.now
      · simp [inside]
      · simp [inside]
    · next other =>
      rw [refines.counts key later fun r member => all r (mem_append_left _ member), recent, recent,
        filter_append, filter_cons_of_neg (by simp [Ne.symm other]), filter_nil, append_nil]

theorem memory_step (hour : window ≤ 3600) (refines : MemoryRefines window history store)
    (arrivals : Arrivals (history ++ [request])) :
    (memorySlidingWindowCheck maxRequests window store request).2 =
        (maxRequests : Int) - ((recent window request.now request.key history).length + 1 : Nat) ∧
      MemoryRefines window (history ++ [request])
        (memorySlidingWindowCheck maxRequests window store request).1 := by
  constructor
  · have entries := timestampsOf_recorded refines arrivals request.key
    rw [if_pos rfl] at entries
    have lengths := congrArg List.length entries
    rw [length_append, length_map, length_singleton] at lengths
    rw [← lengths]
    simp [memorySlidingWindowCheck, recorded, timestampsOf]
  · exact (recorded_refines refines arrivals).purge hour
      ⟨request, mem_append_right _ (mem_singleton_self _), rfl⟩

end Memory

section Redis
variable {maxRequests window : Nat} {history : List Request} {store : RedisStore}
    {request : Request}

def entryOf (request : Request) : Member × Time := ((request.now, request.tag), request.now)

structure RedisRefines (window : Nat) (history : List Request) (store : RedisStore) : Prop where
  known : ∀ key now, ∀ entry ∈ liveMembers store key now, ∃ r ∈ history, entryOf r = entry
  counts : ∀ key now, (∀ r ∈ history, r.now ≤ now) →
    (liveMembers store key now).filter (fun entry => decide (now - window < entry.2)) =
      (recent window now key history).map entryOf

theorem added_members (refines : RedisRefines window history store)
    (arrivals : Arrivals (history ++ [request])) :
    zadd (zremrangebyscore (liveMembers store request.key request.now) 0 (request.now - window))
      (request.now, request.tag)
      request.now = (recent window request.now request.key history).map entryOf ++
        [entryOf request] := by
  have kept : zremrangebyscore (liveMembers store request.key request.now) 0
    (request.now - window) =
      (recent window request.now request.key history).map entryOf := by
    rw [← refines.counts request.key request.now arrivals.le_now, zremrangebyscore]
    refine filter_congr fun entry member => ?_
    obtain ⟨r, inside, rfl⟩ := refines.known _ _ entry member
    have notNegative : 0 ≤ (entryOf r).2 := arrivals.clock r (mem_append_left _ inside)
    simp [notNegative]
  rw [kept, zadd, filter_eq_self.mpr, entryOf]
  intro entry member
  obtain ⟨r, inside, rfl⟩ := mem_map.mp member
  obtain ⟨isPast, sameKey⟩ := mem_filter.mp inside
  exact decide_eq_true
    ((pairwise_append.mp arrivals.distinct).2.2 r isPast request (mem_singleton_self _)
    (of_decide_eq_true sameKey).1)

theorem liveMembers_set (key other : String) (set : SortedSet) (now : Time) :
    liveMembers (fun k => if k = key then some set else store k) other now =
      if other = key then if set.expires < now then [] else set.members
        else liveMembers store other now := by
  unfold liveMembers
  by_cases same : other = key
  · simp [same]
  · simp [same]

theorem redis_step (refines : RedisRefines window history store)
    (arrivals : Arrivals (history ++ [request])) :
    (slidingWindowCheck maxRequests window store request).2 =
        (maxRequests : Int) - ((recent window request.now request.key history).length + 1 : Nat) ∧
      RedisRefines window (history ++ [request])
        (slidingWindowCheck maxRequests window store request).1 := by
  have added := added_members refines arrivals
  have live : ∀ key now,
    liveMembers (slidingWindowCheck maxRequests window store request).1 key now =
      if key = request.key then
        if request.now + (window + 1) < now then [] else
          (recent window request.now request.key history).map entryOf ++ [entryOf request]
      else liveMembers store key now := by
    intro key now
    rw [slidingWindowCheck, liveMembers_set, added]
  refine ⟨?_, fun key now entry member => ?_, fun key now all => ?_⟩
  · rw [slidingWindowCheck, added, length_append, length_map, length_singleton]
  · rw [live] at member
    split at member
    · split at member
      · exact absurd member not_mem_nil
      · obtain old | isRequest := mem_append.mp member
        · obtain ⟨r, inside, rfl⟩ := mem_map.mp old
          exact ⟨r, mem_append_left _ (mem_filter.mp inside).1, rfl⟩
        · exact ⟨request, mem_append_right _ (mem_singleton_self _),
            (mem_singleton.mp isRequest).symm⟩
    · obtain ⟨r, inside, isEntry⟩ := refines.known key now entry member
      exact ⟨r, mem_append_left _ inside, isEntry⟩
  · rw [live]
    split
    · next same =>
      subst same
      split
      · next expired =>
        -- the key expires after its last request has left the window
        rw [filter_nil, recent, filter_eq_nil_iff.mpr, map_nil]
        intro r member counted
        have before : r.now ≤ request.now := by
          obtain past | isRequest := mem_append.mp member
          · exact arrivals.le_now r past
          · exact le_of_eq (congrArg Request.now (mem_singleton.mp isRequest))
        have inside := (of_decide_eq_true counted).2
        linarith
      · rw [recent_append (all request (mem_append_right _ (mem_singleton_self _))), filter_append,
          map_append, filter_map]
        congr 1
        rw [recent, filter_singleton, filter_singleton]
        by_cases inside : now - window < request.now
        · simp [inside, entryOf]
        · simp [inside, entryOf]
    · next other =>
      rw [refines.counts key now fun r member => all r (mem_append_left _ member), recent, recent,
        filter_append, filter_cons_of_neg (by simp [Ne.symm other]), filter_nil, append_nil]

end Redis

section Both
variable {maxRequests window : Nat} {requests : List Request}

theorem redis_decisions (arrivals : Arrivals requests) :
    decisions (slidingWindowCheck maxRequests window) emptyRedis requests =
      slidingDecisions maxRequests window [] requests :=
  decisions_of_counts (RedisRefines window) (fun _ _ _ refines => redis_step refines) requests
    [] emptyRedis
    ⟨fun _ _ _ none => absurd none not_mem_nil, fun _ _ _ => rfl⟩ arrivals

theorem memory_decisions (hour : window ≤ 3600) (arrivals : Arrivals requests) :
    decisions (memorySlidingWindowCheck maxRequests window) emptyMemory requests =
      slidingDecisions maxRequests window [] requests :=
  decisions_of_counts (MemoryRefines window) (fun _ _ _ refines => memory_step hour refines)
    requests [] emptyMemory
    ⟨fun _ => .nil, fun _ _ none => absurd none not_mem_nil, fun _ _ _ => rfl⟩ arrivals

theorem sliding_limited (requests : List Request) :
    Limited maxRequests window requests (slidingDecisions maxRequests window [] requests) := by
  refine fun start key =>
    ⟨accepted_le (fun a b isA isB => ?_) key requests,
      accepted_le (fun a b isA isB => ?_) key requests⟩
  · have first : start ≤ a ∧ a < start + window := by simpa using isA
    have second : start ≤ b ∧ b < start + window := by simpa using isB
    linarith
  · have first : start < a ∧ a ≤ start + window := by simpa using isA
    have second : start < b ∧ b ≤ start + window := by simpa using isB
    linarith

end Both

section Idle
variable {maxRequests window : Nat}

theorem decisions_append {σ : Type} (check : σ → Request → σ × Int)
    (requests later : List Request) : ∀ store,
    decisions check store (requests ++ later) = decisions check store requests ++
      decisions check (requests.foldl (fun store request => (check store request).1) store)
        later := by
  induction requests with
  | nil => exact fun _ => rfl
  | cons request requests ih =>
    intro store
    rw [cons_append, decisions, ih]
    rfl

def beforeIdle (maxRequests : Nat) : List Request :=
  (List.range maxRequests).map (fun tag => ⟨"a", 0, tag⟩) ++ [⟨"b", 3600, 0⟩]

def afterIdle : Request := ⟨"a", 3600, 0⟩

theorem idle_arrivals (maxRequests : Nat) : Arrivals (beforeIdle maxRequests ++ [afterIdle]) := by
  have early : ∀ r ∈ (List.range maxRequests).map (fun tag => (⟨"a", 0, tag⟩ : Request)),
      r.key = "a" ∧ r.now = 0 := by
    intro r member
    obtain ⟨tag, _, rfl⟩ := mem_map.mp member
    exact ⟨rfl, rfl⟩
  have late : ∀ r ∈ [(⟨"b", 3600, 0⟩ : Request), afterIdle], r.now = 3600 := by
    intro r member
    obtain rfl | rest := mem_cons.mp member
    · rfl
    · rw [mem_singleton.mp rest]
      rfl
  rw [beforeIdle, append_assoc, singleton_append]
  refine ⟨fun r member => ?_, pairwise_append.mpr ⟨?_, ?_, ?_⟩, pairwise_append.mpr ⟨?_, ?_, ?_⟩⟩
  · obtain first | second := mem_append.mp member
    · exact le_of_eq (early r first).2.symm
    · rw [late r second]
      norm_num
  · exact pairwise_map.mpr (pairwise_of_forall fun _ _ => le_refl _)
  · exact pairwise_pair.mpr (le_refl _)
  · intro one first other second
    rw [(early one first).2, late other second]
    norm_num
  · refine pairwise_map.mpr (nodup_range.imp fun different _ same => different ?_)
    exact congrArg Prod.snd same
  · exact pairwise_pair.mpr fun same => absurd same (by decide)
  · intro one first other second _ same
    have times := congrArg Prod.fst same
    rw [(early one first).2, late other second] at times
    norm_num at times

structure AtStart (store : MemoryStore) : Prop where
  lastPurge : store.lastPurge = 0
  old : ∀ time ∈ timestampsOf store "a", time ≤ 0

theorem atStart_step {store : MemoryStore} (start : AtStart store) (tag : Nat) :
    AtStart (memorySlidingWindowCheck maxRequests window store ⟨"a", 0, tag⟩).1 := by
  have unpurged : (memorySlidingWindowCheck maxRequests window store ⟨"a", 0, tag⟩).1 =
      recorded window store ⟨"a", 0, tag⟩ := by
    show purgeIdleWindows (recorded window store ⟨"a", 0, tag⟩) 0 = _
    rw [purgeIdleWindows, if_pos]
    show (0 : Time) - store.lastPurge < memoryPurgeInterval
    rw [start.lastPurge, memoryPurgeInterval]
    norm_num
  rw [unpurged]
  refine ⟨start.lastPurge, fun time member => ?_⟩
  have entry : timestampsOf (recorded window store ⟨"a", 0, tag⟩) "a" =
      (timestampsOf store "a").dropWhile
      (fun time => decide (time ≤ (0 : Time) - (window : Time))) ++ [(0 : Time)] := by
    simp [timestampsOf, recorded]
  rw [entry] at member
  obtain before | isNow := mem_append.mp member
  · exact start.old time (dropWhile_suffix _ |>.subset before)
  · exact le_of_eq (mem_singleton.mp isNow)

theorem forgotten {store : MemoryStore} (start : AtStart store) :
    timestampsOf (memorySlidingWindowCheck maxRequests window store ⟨"b", 3600, 0⟩).1 "a" = [] := by
  show timestampsOf (purgeIdleWindows (recorded window store ⟨"b", 3600, 0⟩) 3600) "a" = []
  have due : ¬(3600 : Time) - (recorded window store ⟨"b", 3600, 0⟩).lastPurge <
      memoryPurgeInterval := by
    show ¬(3600 : Time) - store.lastPurge < memoryPurgeInterval
    rw [start.lastPurge, memoryPurgeInterval]
    norm_num
  have same : (recorded window store ⟨"b", 3600, 0⟩).windows "a" = store.windows "a" := by
    simp [recorded]
  rw [purgeIdleWindows, if_neg due]
  unfold timestampsOf
  dsimp only
  rw [same]
  have old := start.old
  unfold timestampsOf at old
  cases held : store.windows "a" with
  | none => rfl
  | some times =>
    rw [held, Option.getD_some] at old
    rw [Option.filter_some, if_neg]
    · rfl
    · intro fresh
      obtain ⟨last, isLast, recentLast⟩ := (Option.any_eq_true _ _).mp fresh
      have isOld := old last (mem_of_getLast? isLast)
      have isRecent := of_decide_eq_true recentLast
      rw [memoryKeyMaxIdle] at isRecent
      linarith

theorem idle_differs (positive : 0 < maxRequests) (longer : 3600 < window) :
    decisions (memorySlidingWindowCheck maxRequests window) emptyMemory
      (beforeIdle maxRequests ++ [afterIdle]) ≠
      decisions (slidingWindowCheck maxRequests window) emptyRedis
        (beforeIdle maxRequests ++ [afterIdle]) := by
  have redis : (decisions (slidingWindowCheck maxRequests window) emptyRedis
    (beforeIdle maxRequests ++ [afterIdle])).getLast? =
      some false := by
    rw [redis_decisions (idle_arrivals maxRequests), slidingDecisions_append, nil_append,
      getLast?_concat, decide_eq_false]
    have long : (3600 : Time) < window := by exact_mod_cast longer
    have allKept :
      recent window 3600 "a" ((List.range maxRequests).map fun tag => (⟨"a", 0, tag⟩ : Request)) =
        (List.range maxRequests).map fun tag => (⟨"a", 0, tag⟩ : Request) := by
      rw [recent, filter_eq_self]
      intro r member
      obtain ⟨tag, _, rfl⟩ := mem_map.mp member
      exact decide_eq_true ⟨rfl, by linarith⟩
    show ¬(recent window 3600 "a" (beforeIdle maxRequests)).length + 1 ≤ maxRequests
    rw [beforeIdle, recent, filter_append, length_append]
    have count := congrArg List.length allKept
    rw [recent, length_map, length_range] at count
    omega
  have memory : (decisions (memorySlidingWindowCheck maxRequests window) emptyMemory
      (beforeIdle maxRequests ++ [afterIdle])).getLast? = some true := by
    have start : ∀ (tags : List Nat) (store : MemoryStore), AtStart store →
      AtStart ((tags.map fun tag =>
        (⟨"a", 0, tag⟩ : Request)).foldl
          (fun store request => (memorySlidingWindowCheck maxRequests window store request).1)
          store) := by
      intro tags
      induction tags with
      | nil => exact fun _ start => start
      | cons tag tags ih => exact fun store start => ih _ (atStart_step start tag)
    have gone := @forgotten maxRequests window _
      (start (List.range maxRequests) emptyMemory ⟨rfl, fun _ none => absurd none not_mem_nil⟩)
    rw [decisions_append, decisions, decisions, getLast?_concat, beforeIdle, foldl_append]
    refine congrArg some (decide_eq_true ?_)
    rw [foldl_cons, foldl_nil]
    generalize (memorySlidingWindowCheck maxRequests window _ _).1 = store at gone ⊢
    have alone : (memorySlidingWindowCheck maxRequests window store afterIdle).2 =
        (maxRequests : Int) - 1 := by
      unfold timestampsOf at gone
      simp [memorySlidingWindowCheck, afterIdle, gone]
    rw [alone]
    omega
  intro same
  rw [same, redis] at memory
  cases memory

/-- A rule limits exactly, and alike in both stores, when its window is at most an hour. -/
theorem exactAlike_iff {spec : String}
    (parsed : parseRateLimit spec = some (some (maxRequests, window))) :
    ExactAlike maxRequests window ↔ window ≤ 3600 := by
  constructor
  · intro exact
    by_contra longer
    exact idle_differs (parseRateLimit_pos parsed) (not_le.mp longer)
      (exact _ (idle_arrivals maxRequests)).1
  · intro hour requests arrivals
    rw [memory_decisions hour arrivals, redis_decisions arrivals]
    exact ⟨rfl, sliding_limited requests, sliding_limited requests⟩

theorem five_per_minute_exact : ExactAlike 5 60 ↔ 60 ≤ 3600 :=
  exactAlike_iff (show parseRateLimit "5 per minute" = some (some (5, 60)) by decide)

/-- With one request per day, a client is let through again after an hour. -/
theorem one_per_day_forgets : parseRateLimit "1 per day" = some (some (1, 86400)) ∧
    decisions (memorySlidingWindowCheck 1 86400) emptyMemory (beforeIdle 1 ++ [afterIdle]) ≠
      decisions (slidingWindowCheck 1 86400) emptyRedis (beforeIdle 1 ++ [afterIdle]) ∧
      ¬ExactAlike 1 86400 :=
  ⟨by decide, idle_differs (by decide) (by decide),
    fun exact => idle_differs (by decide) (by decide) (exact _ (idle_arrivals 1)).1⟩

end Idle

section OneKey
variable {maxRequests window : Nat} {key : String}

def ofKey (key : String) (request : Request) : Bool := request.key = key

/-- The requests of a key are decided as if no other key had sent any. -/
def KeysApart {σ : Type} (check : σ → Request → σ × Int) (store : σ) : Prop :=
  ∀ requests, Arrivals requests → ∀ key,
    (requests.zip (decisions check store requests)).filter (fun pair => ofKey key pair.1) =
      (requests.filter (ofKey key)).zip (decisions check store (requests.filter (ofKey key)))

theorem slidingDecisions_ofKey (requests : List Request) : ∀ history,
    (requests.zip (slidingDecisions maxRequests window history requests)).filter
      (fun pair => ofKey key pair.1) =
      (requests.filter (ofKey key)).zip
        (slidingDecisions maxRequests window (history.filter (ofKey key))
          (requests.filter (ofKey key))) := by
  induction requests with
  | nil => exact fun _ => rfl
  | cons request rest ih =>
    intro history
    have later := ih (history ++ [request])
    rw [filter_append] at later
    by_cases own : request.key = key
    · have same : recent window request.now request.key (history.filter (ofKey key)) =
          recent window request.now request.key history := by
        unfold recent
        rw [filter_filter]
        refine filter_congr fun r _ => ?_
        simp only [ofKey, own]
        grind
      simp_all [slidingDecisions, ofKey]
    · simp_all [slidingDecisions, ofKey]

theorem keysApart_of_sliding {σ : Type} {check : σ → Request → σ × Int} {store : σ}
    (sliding : ∀ requests, Arrivals requests →
    decisions check store requests = slidingDecisions maxRequests window [] requests) :
    KeysApart check store := by
  intro requests arrivals key
  have alone : Arrivals (requests.filter (ofKey key)) :=
    ⟨fun r member => arrivals.clock r (mem_of_mem_filter member), arrivals.ordered.filter _,
      arrivals.distinct.filter _⟩
  rw [sliding requests arrivals, sliding _ alone]
  exact slidingDecisions_ofKey requests []

/-- No key uses up the requests of another: in Redis for every window, in the process
for windows up to an hour. -/
theorem keys_apart (maxRequests window : Nat) :
    KeysApart (slidingWindowCheck maxRequests window) emptyRedis ∧
      (window ≤ 3600 → KeysApart (memorySlidingWindowCheck maxRequests window) emptyMemory) :=
  ⟨keysApart_of_sliding fun _ => redis_decisions,
    fun hour => keysApart_of_sliding fun _ => memory_decisions hour⟩

/-- Two clients with one request per minute each, the first of which asks again too early. -/
def twoClients : List Request :=
  [⟨"alice", 100, 0⟩, ⟨"bob", 101, 1⟩, ⟨"alice", 102, 2⟩, ⟨"bob", 162, 3⟩, ⟨"alice", 163, 4⟩]

theorem twoClients_arrivals : Arrivals twoClients where
  clock := by decide
  ordered := by decide
  distinct := by decide

theorem twoClients_apart :
    decisions (slidingWindowCheck 1 60) emptyRedis twoClients = [true, true, false, true, true] ∧
      (twoClients.zip [true, true, false, true, true]).filter (fun pair => ofKey "alice" pair.1) =
        (twoClients.filter (ofKey "alice")).zip
          (decisions (slidingWindowCheck 1 60) emptyRedis (twoClients.filter (ofKey "alice"))) ∧
      (twoClients.zip (decisions (memorySlidingWindowCheck 1 60) emptyMemory twoClients)).filter
          (fun pair => ofKey "bob" pair.1) =
        (twoClients.filter (ofKey "bob")).zip
          (decisions (memorySlidingWindowCheck 1 60) emptyMemory
            (twoClients.filter (ofKey "bob"))) := by
  have decided :
      decisions (slidingWindowCheck 1 60) emptyRedis twoClients =
        [true, true, false, true, true] := by
    rw [redis_decisions twoClients_arrivals]
    norm_num [twoClients, slidingDecisions, recent]
    decide
  obtain ⟨redis, memory⟩ := keys_apart 1 60
  have alice := redis twoClients twoClients_arrivals "alice"
  rw [decided] at alice
  exact ⟨decided, alice, memory (by decide) twoClients twoClients_arrivals "bob"⟩

end OneKey
end Liteset.Middleware.RateLimit
