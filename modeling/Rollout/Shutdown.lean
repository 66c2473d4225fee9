/-!
# Shutting down

Cancellation tokens form a tree: cancelling a token cancels everything below it, also what is
made from it later.  The coordinator owns the root; whoever waits for the shutdown is woken when
the root is cancelled.
-/

namespace Rollout

structure Token where
  parent : Option Nat
  cancelled : Bool
  deriving DecidableEq, Repr, Inhabited

/-- A tree of tokens; a token's parent has a smaller number. -/
structure TokenTree where
  tokens : List Token := [⟨none, false⟩]
  deriving DecidableEq, Repr, Inhabited

namespace TokenTree

/-- Whether the token of a number, at most `fuel` levels deep, is cancelled. -/
def cancelledWithin (t : TokenTree) : Nat → Nat → Bool
  | 0, _ => false
  | fuel + 1, i =>
    match t.tokens[i]? with
    | none => false
    | some token =>
      token.cancelled || match token.parent with
        | some p => t.cancelledWithin fuel p
        | none => false

def isCancelled (t : TokenTree) (i : Nat) : Bool := t.cancelledWithin t.tokens.length i

/-- A new token below the token `i`, which comes last. -/
def child (t : TokenTree) (i : Nat) : TokenTree := ⟨t.tokens ++ [⟨some i, false⟩]⟩

def cancel (t : TokenTree) (i : Nat) : TokenTree :=
  ⟨t.tokens.modify i fun token ↦ { token with cancelled := true }⟩

/-- Which tokens are cancelled, in the order in which they were made. -/
def states (t : TokenTree) : List Bool := (List.range t.tokens.length).map t.isCancelled

end TokenTree

structure ShutdownCoordinator where
  tree : TokenTree := {}
  /-- The number of those who wait for the shutdown. -/
  waiting : Nat := 0
  deriving DecidableEq, Repr, Inhabited

namespace ShutdownCoordinator

def isShuttingDown (c : ShutdownCoordinator) : Bool := c.tree.isCancelled 0

def trigger (c : ShutdownCoordinator) : ShutdownCoordinator := { c with tree := c.tree.cancel 0 }

def wait (c : ShutdownCoordinator) : ShutdownCoordinator := { c with waiting := c.waiting + 1 }

/-- Which of the waits are over: all or none. -/
def finishedWaits (c : ShutdownCoordinator) : List Bool := List.replicate c.waiting c.isShuttingDown

/-- Shut everything down: the coordinator's tree and the token of the workflow, which is made for
it below the root.  However the server ends, the shutdown completes. -/
def shutDownAll (c : ShutdownCoordinator) : ShutdownCoordinator :=
  let number := c.tree.tokens.length
  { c with tree := ((c.tree.child 0).cancel 0).cancel number }

end ShutdownCoordinator
end Rollout
