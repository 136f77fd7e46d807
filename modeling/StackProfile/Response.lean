/-!
# Responses

Every query answers with a status, a message and, unless it failed or was cancelled, a
model.
-/

namespace StackProfile

/-- How a query ended. While the analysis behind it is still running the model is
partial. -/
inductive Status where
  | running
  | completed
  | cancelled
  | failed
  deriving DecidableEq, Repr

/-- The answer to a query. -/
structure Response (μ : Type) where
  status : Status
  message : String
  model : Option μ
  deriving DecidableEq, Repr

namespace Response

variable {μ ν : Type}

def completed (model : μ) : Response μ := ⟨.completed, "Completed", some model⟩

def running (model : μ) : Response μ := ⟨.running, "Running", some model⟩

def cancelled : Response μ := ⟨.cancelled, "Task cancelled", none⟩

def failed (message : String) : Response μ := ⟨.failed, message, none⟩

def incorrectParameters : Response μ := failed "Incorrect query parameters"

def isCompleted (r : Response μ) : Bool := r.status == .completed

/-- The response with another model, status and message unchanged. -/
def map (f : μ → ν) (r : Response μ) : Response ν := ⟨r.status, r.message, r.model.map f⟩

end Response

end StackProfile
