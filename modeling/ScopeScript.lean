import ScopeScript.Main
import ScopeScript.Proofs.Diagnostic.Location
import ScopeScript.Proofs.Machine.Compound
import ScopeScript.Proofs.Machine.Discipline
import ScopeScript.Proofs.Machine.Ends
import ScopeScript.Proofs.Machine.Isolation
import ScopeScript.Proofs.Machine.Limit
import ScopeScript.Proofs.Machine.Rerun
import ScopeScript.Proofs.Machine.Unmentioned
import ScopeScript.Proofs.Memory.Aliasing
import ScopeScript.Proofs.Offset.Position
import ScopeScript.Proofs.Offset.Relocation
import ScopeScript.Proofs.Offset.Spacing
import ScopeScript.Proofs.Parser.Exact
import ScopeScript.Proofs.Parser.Viable
import ScopeScript.Proofs.Program.Arena
import ScopeScript.Proofs.Prompt.Session
import ScopeScript.Proofs.Token.Roundtrip
import ScopeScript.Proofs.Viewer.Fault
import ScopeScript.Proofs.Viewer.Highlight
import ScopeScript.Proofs.Token.Code
import ScopeScript.Proofs.Viewer.Covering
import ScopeScript.Proofs.CommandLine.Groups
import ScopeScript.Proofs.Reader.Agreement
import ScopeScript.Proofs.Reader.Bookkeeping
