import JobQueue.Time.Span

/-!
# Jobs

The kinds of jobs and their jobs.  The kind fixes the tag under which a job is
routed; the job says on which queue it lands, how many attempts it has, and how
long it waits, unless the options of its submission say otherwise.
-/

namespace JobQueue

/-- The queue of jobs for which nobody chooses one. -/
abbrev defaultQueue : String := "default"

/-- The attempts of jobs for which nobody chooses a number. -/
abbrev defaultMaxRetries : UInt32 := 3

/-- An entry for the log of a record. -/
structure CreateLog where
  /-- The number of the record. -/
  loggableId : Int64
  /-- What was done to it. -/
  action : String
deriving DecidableEq, Repr

/-- The import of a file of accounts. -/
structure ImportAccounts where
  /-- Where the file is. -/
  filePath : String
  /-- The company that the accounts belong to. -/
  companyId : UInt64
deriving DecidableEq, Repr

/-- The processing of a batch of data. -/
structure ProcessData where
  /-- The number of the batch. -/
  batch : UInt32
  /-- The tags of the batch. -/
  tags : List String
  /-- A remark. -/
  note : Option String
  /-- Whether nothing is to be changed. -/
  dryRun : Bool
deriving DecidableEq, Repr

/-- A job that chooses its queue, attempts and delay itself. -/
structure MyJob where
  /-- The queue. -/
  q : Option String
  /-- The number of attempts. -/
  retries : Option UInt32
  /-- The delay. -/
  delay : Option Span
deriving DecidableEq, Repr

/-- A job whose payload is a map with pairs as keys, which JSON cannot write
unless it is empty. -/
structure KeyedJob where
  /-- The keys. -/
  pairs : List (Int64 × Int64)
deriving DecidableEq, Repr

/-- The kinds of jobs. -/
inductive JobKind where
  /-- Log entries. -/
  | createLog
  /-- Imports of accounts. -/
  | importAccounts
  /-- Batches of data. -/
  | processData
  /-- Jobs that choose for themselves. -/
  | mine
  /-- Jobs with pairs as keys. -/
  | keyed
deriving DecidableEq, Repr

/-- A job. -/
inductive Job where
  /-- A log entry. -/
  | createLog (payload : CreateLog)
  /-- An import of accounts. -/
  | importAccounts (payload : ImportAccounts)
  /-- A batch of data. -/
  | processData (payload : ProcessData)
  /-- A job that chooses for itself. -/
  | mine (payload : MyJob)
  /-- A job with pairs as keys. -/
  | keyed (payload : KeyedJob)
deriving DecidableEq, Repr

namespace JobKind

/-- The tag under which jobs of a kind are routed. -/
def tag : JobKind → String
  | createLog => "log:create"
  | importAccounts => "import_coa_account:job"
  | processData => "data:process"
  | mine => "my:job"
  | keyed => "bad:keys"

/-- All kinds. -/
def all : List JobKind := [createLog, importAccounts, processData, mine, keyed]

/-- The kind with a tag. -/
def ofTag? (tag : String) : Option JobKind := all.find? fun k => k.tag = tag

theorem mem_all (k : JobKind) : k ∈ all := by cases k <;> decide

/-- Different kinds have different tags. -/
theorem tag_inj {a b : JobKind} : a.tag = b.tag ↔ a = b := by
  cases a <;> cases b <;> decide

theorem ofTag?_tag (k : JobKind) : ofTag? k.tag = some k := by cases k <;> decide

end JobKind

namespace Job

/-- The kind of a job. -/
def kind : Job → JobKind
  | createLog _ => .createLog
  | importAccounts _ => .importAccounts
  | processData _ => .processData
  | mine _ => .mine
  | keyed _ => .keyed

/-- The tag under which a job is routed. -/
def tag (j : Job) : String := j.kind.tag

/-- The queue of a job. -/
def queue : Job → String
  | createLog _ | keyed _ => defaultQueue
  | importAccounts _ => "imports"
  | processData _ => ""
  | mine p => p.q.getD "mine"

/-- The attempts of a job. -/
def maxRetries : Job → UInt32
  | createLog _ | keyed _ => defaultMaxRetries
  | importAccounts _ => 5
  | processData _ => 0
  | mine p => p.retries.getD 7

/-- How long a job waits. -/
def delay : Job → Span
  | mine p => p.delay.getD .zero
  | _ => .zero

end Job

end JobQueue
