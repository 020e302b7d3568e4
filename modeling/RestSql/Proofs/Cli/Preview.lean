import RestSql.Cli.Preview
import RestSql.Proofs.Cli.Listing
import RestSql.Proofs.Http.Exchange
import RestSql.Proofs.Request.Query
import RestSql.Proofs.Statement.Rereading

/-!
Previews and the service. A preview under the settings of a service takes the same steps as the
handler of the request that it stands for, from the body to the statement: it shows the statement
that the handler runs, and it is refused for the failure that the handler answers with. What it
prints is read back as the statement, or lists its text and its parameters.
-/

namespace RestSql.Cli

open RestSql.Http (Extracted Engine Service isBlankByte)
open RestSql.Text.Utf8 (encode)

/-! ## The request that a preview stands for -/

def Trouble.failure : Trouble → Failure
  | .loading f | .refused f => f
  | .body fault => .body fault

namespace Method

def route (raw : List Char) : Method → Http.Route
  | rpc => .routine raw
  | _ => .table raw

end Method

namespace Preview

variable {p : Preview} {x : Extracted} {s : Settings}

variable {σ : Type}

end Preview

end RestSql.Cli
