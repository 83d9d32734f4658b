import JobQueue.Broker
import JobQueue.Envelope
import JobQueue.Notice
import JobQueue.Submission

/-!
# Dispatching jobs

A client that dispatches a job puts it into an envelope, resolves its choices,
and hands the message to the broker.  What goes wrong is reported with the type
of the job, but a broker that does not serve is reported as such.

There are shorter forms for a job that is to wait, to run at a time, or to go to a
queue.  They put one choice in front of those of the client, which so override it.
-/

namespace JobQueue

/-- An error with the type of the job that was to be enqueued. -/
def QueueError.forJob (type : String) : QueueError → QueueError
  | unavailable => unavailable
  | e => notEnqueued type e

/-- The message of a posting with the choices of a client. -/
def Message.ofPosting (codec : Codec) (choices : List Choice) (p : Posting) (now : Instant) :
    Except QueueError Message :=
  match (Envelope.ofPosting p).map codec.encode with
  | .error e => .error (e.forJob p.tag)
  | .ok envelope =>
    let s := Submission.ofPosting choices p now
    .ok
      { type := p.tag, queue := s.queue, envelope, maxRetries := s.maxRetries,
        processAt := s.processAt, timeout := s.timeout }

section Made

variable {codec : Codec} {choices : List Choice} {p : Posting} {now : Instant}

theorem Message.ofPosting_of_error {e : QueueError}
    (unwritten : (Envelope.ofPosting p).map codec.encode = .error e) :
    ofPosting codec choices p now = .error (e.forJob p.tag) := by
  rw [ofPosting, unwritten]

theorem Message.ofPosting_of_ok {envelope : Bytes}
    (written : (Envelope.ofPosting p).map codec.encode = .ok envelope) :
    ofPosting codec choices p now = .ok
      { type := p.tag, queue := (Submission.ofPosting choices p now).queue, envelope
        maxRetries := (Submission.ofPosting choices p now).maxRetries
        processAt := (Submission.ofPosting choices p now).processAt
        timeout := (Submission.ofPosting choices p now).timeout } := by
  rw [ofPosting, written]

end Made

/-- The message of a job with the choices of a client. -/
def Message.ofJob (codec : Codec) (choices : List Choice) (j : Job) (now : Instant) :
    Except QueueError Message :=
  ofPosting codec choices j.posting now

/-- What comes of dispatching a job. -/
structure Dispatched where
  /-- The reply to the client. -/
  reply : Reply JobId
  /-- The broker after it. -/
  broker : Broker
  /-- What there is to report. -/
  notices : List Notice

namespace Posting

variable (p : Posting) (codec : Codec)

/-- Dispatch a posting.  A delay counts from `now`, and the message reaches the broker
at `arrival`. -/
def dispatch (choices : List Choice) (id : JobId) (now arrival : Instant) (broker : Broker) :
    Dispatched :=
  match Message.ofPosting codec choices p now with
  | .error e => { reply := .answered (.error e), broker, notices := [] }
  | .ok m =>
    match broker.enqueue id m arrival with
    | (.answered (.ok id), broker) =>
      { reply := .answered (.ok id), broker
        notices := [{ level := .info, message := "dispatched job" }] }
    | (.answered (.error e), broker) =>
      { reply := .answered (.error (e.forJob p.tag)), broker
        notices :=
          [{ level := .warn, message := "broker rejected job", fields := [("error", e.message)] }] }
    | (.crashed, broker) => { reply := .crashed, broker, notices := [] }

section Result

variable {p : Posting} {codec : Codec} {choices : List Choice} {id : JobId} {now arrival : Instant}
  {b b' : Broker} {m : Message} {e : QueueError}

/-- What has no message does not reach the broker. -/
theorem dispatch_of_error (unmade : Message.ofPosting codec choices p now = .error e) :
    p.dispatch codec choices id now arrival b =
      { reply := .answered (.error e), broker := b, notices := [] } := by
  rw [dispatch, unmade]

theorem dispatch_of_taken (made : Message.ofPosting codec choices p now = .ok m)
    (taken : b.enqueue id m arrival = (.answered (.ok id), b')) :
    p.dispatch codec choices id now arrival b =
      { reply := .answered (.ok id), broker := b'
        notices := [{ level := .info, message := "dispatched job" }] } := by
  rw [dispatch, made]
  simp only [taken]

theorem dispatch_of_refused (made : Message.ofPosting codec choices p now = .ok m)
    (refused : b.enqueue id m arrival = (.answered (.error e), b')) :
    p.dispatch codec choices id now arrival b =
      { reply := .answered (.error (e.forJob p.tag)), broker := b'
        notices :=
          [{ level := .warn, message := "broker rejected job"
             fields := [("error", e.message)] }] } := by
  rw [dispatch, made]
  simp only [refused]

end Result

/-- Dispatch a posting with a choice that those of the client override. -/
def dispatchWith (choice : Choice) (choices : List Choice) :
    JobId → Instant → Instant → Broker → Dispatched :=
  p.dispatch codec (choice :: choices)

/-- Dispatch a posting that is to wait. -/
def dispatchLater (delay : Span) := p.dispatchWith codec (.delay delay)

/-- Dispatch a posting that is to run at a time. -/
def dispatchAt (time : Instant) := p.dispatchWith codec (.processAt time)

/-- Dispatch a posting to a queue. -/
def dispatchOnQueue (name : String) := p.dispatchWith codec (.queue name)

end Posting

/-- Dispatch a job. -/
def dispatch (codec : Codec) (choices : List Choice) (j : Job) (id : JobId) (now : Instant)
    (broker : Broker) : Dispatched :=
  j.posting.dispatch codec choices id now now broker

end JobQueue
