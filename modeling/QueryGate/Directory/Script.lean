import QueryGate.Directory.Conversation

/-! A directory that gives prepared outcomes, one queue for each kind of request. -/

namespace QueryGate.Directory

structure Script where
  connects : List (Except Fault Unit) := []
  binds : List (Except Fault BindOutcome) := []
  searches : List (Except Fault (List Entry)) := []

namespace Script

def answer : Answerer Script
  | .connect _, script =>
    (script.connects.headD (.ok ()), { script with connects := script.connects.tail })
  | .bind .., script =>
    (script.binds.headD (.ok .bound), { script with binds := script.binds.tail })
  | .search .., script =>
    (script.searches.headD (.ok []), { script with searches := script.searches.tail })
  | .unbind, script => ((), script)

end Script
end QueryGate.Directory
