import Liteset.Lib.Runs

/-!
# The SQL Lab worker

`get_sql_results` and `execute_sql_statements` of `superset/tasks/sql_lab.py` as a
sequence of accesses to the row of the query, and the stop request of
`AsyncQueryDAO.stop_query` that may be committed between any two of them.

The session expires what it loaded at every commit, and a commit writes the status
only when a value other than the loaded one was assigned.  What the database, the
engine and the configuration do is fixed by `Outcomes`; an outcome that raises
stands for any exception there, also one of the metadata database.
-/

set_option autoImplicit false

namespace Liteset.Tasks.SqlLab

open Liteset.Lib.Runs

inductive QueryStatus where
  | stopped | failed | pending | running | scheduled | success | fetching | timedOut
  deriving DecidableEq, Repr

/-- `terminal_states` of `stop_query`: a stopped query may be stopped again. -/
def QueryStatus.terminal : QueryStatus → Bool
  | .failed | .success | .timedOut => true
  | _ => false

/-- How `_execute_query` ends. -/
inductive BlockResult where
  | success
  /-- `SoftTimeLimitExceeded` -/
  | timeLimit
  /-- `OAuth2RedirectError` -/
  | oauth2Redirect
  /-- Any other exception; `readable` tells whether the row can be read again. -/
  | error (readable : Bool)
  deriving DecidableEq, Repr

structure Block where
  /-- Neither the progress commit nor `mutate_sql_based_on_config` raises. -/
  mutated : Bool
  /-- Commits and refreshes of `handle_cursor` while the block runs. -/
  polls : Nat
  result : BlockResult
  deriving DecidableEq, Repr

inductive Finish where
  | raises
  /-- The results are not stored and not returned either. -/
  | notStored
  | stored
  deriving DecidableEq, Repr

structure Outcomes where
  /-- Nothing raises before RUNNING is committed. -/
  prepared : Bool
  /-- Nothing raises between RUNNING and the first block. -/
  setUp : Bool
  /-- The engine has a cancel id, which is committed. -/
  cancelId : Bool
  blocks : List Block
  finish : Finish
  /-- The payload can be returned. -/
  returned : Bool
  /-- The handler of `get_sql_results` can record an error. -/
  recorded : Bool
  deriving DecidableEq, Repr

inductive Pc where
  /-- `_get_query` -/
  | fetch
  /-- `query.status = RUNNING`, commit -/
  | fetched
  | setup
  /-- The commit of the cancel id. -/
  | cancelKey
  /-- The head of the loop, with the blocks that are left. -/
  | block (rest : List Block)
  /-- The commit of the progress message. -/
  | progress (b : Block) (rest : List Block)
  /-- The commit at the start of `_execute_query`. -/
  | mutated (b : Block) (rest : List Block)
  | executing (polls : Nat) (b : Block) (rest : List Block)
  /-- `_handle_query_error` of a block. -/
  | failing
  | finish
  /-- `if query.status != FAILED: query.status = SUCCESS`, commit -/
  | succeed
  | returning
  /-- `_get_query` in the handler of `get_sql_results`. -/
  | unhandled
  /-- `_handle_query_error` of that handler. -/
  | recording
  | done
  deriving DecidableEq, Repr

structure World where
  row : QueryStatus
  /-- The status in the session, while it is not expired. -/
  loaded : Option QueryStatus
  pc : Pc
  deriving DecidableEq, Repr

namespace World

def goto (w : World) (pc : Pc) : World := { w with pc := pc }

/-- `session.refresh(query)`, or reading an expired row. -/
def refresh (w : World) (pc : Pc) : World := { w with loaded := some w.row, pc := pc }

def commit (w : World) (pc : Pc) : World := { w with loaded := none, pc := pc }

/-- `query.status = status` and a commit. -/
def commitStatus (w : World) (status : QueryStatus) (pc : Pc) : World where
  row := if w.loaded = some status then w.row else status
  loaded := none
  pc := pc

/-- Reading `query.status`. -/
def status (w : World) : QueryStatus := w.loaded.getD w.row

end World

/-- The end of `_execute_query`, with the handlers of the loop around it. -/
def endBlock (w : World) (result : BlockResult) (rest : List Block) : World :=
  match result with
  | .success => w.goto (.block rest)
  | .timeLimit | .oauth2Redirect => w.goto .failing
  | .error readable =>
    if readable then
      if w.row = .stopped then w.refresh .done else w.refresh .failing
    else w.goto .failing

def endLoop (o : Outcomes) (w : World) : World :=
  if o.blocks = [] then w.goto .unhandled
  else
    match o.finish with
    | .raises => w.goto .unhandled
    | .notStored => w.commitStatus .failed .unhandled
    | .stored => w.goto .succeed

def worker (o : Outcomes) (w : World) : Option World :=
  match w.pc with
  | .fetch => some (w.refresh .fetched)
  | .fetched =>
    some (if o.prepared then w.commitStatus .running .setup else w.goto .unhandled)
  | .setup =>
    some (if o.setUp then w.goto (if o.cancelId then .cancelKey else .block o.blocks)
      else w.goto .unhandled)
  | .cancelKey => some (w.commit (.block o.blocks))
  | .block [] => some (w.goto .finish)
  | .block (b :: rest) =>
    some (if w.row = .stopped then w.refresh .done else w.refresh (.progress b rest))
  | .progress b rest =>
    some (w.commit (if b.mutated then .mutated b rest else .unhandled))
  | .mutated b rest => some (w.refresh (.executing b.polls b rest))
  | .executing (polls + 1) b rest => some (w.refresh (.executing polls b rest))
  | .executing 0 b rest => some (endBlock w b.result rest)
  | .failing => some (w.commitStatus .failed .done)
  | .finish => some (endLoop o w)
  | .succeed =>
    some (if w.status = .failed then w.commit .returning else w.commitStatus .success .returning)
  | .returning => some (w.goto (if o.returned then .done else .unhandled))
  | .unhandled => some (if o.recorded then w.refresh .recording else w.goto .done)
  | .recording => some (w.commitStatus .failed .done)
  | .done => none

inductive Event where
  | worker
  | stop
  deriving DecidableEq, Repr

/-- `stop_query`, at the moment its status is committed. -/
def stop (w : World) : Option World :=
  if w.row.terminal then none else some { w with row := .stopped }

def step (o : Outcomes) (w : World) : Event → Option World
  | .worker => worker o w
  | .stop => stop w

def start (row : QueryStatus) : World := { row := row, loaded := none, pc := .fetch }

end Liteset.Tasks.SqlLab
