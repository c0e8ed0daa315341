import ScopeLexer.Scope.Stack

/-!
# Tokens

A `Token` is a span of a line with the scopes that apply to it.  A `TokenStream` collects spans one
behind the other while a line is scanned, `TokenStream.finish` turns them into the tokens of the
line.
-/

namespace ScopeLexer

structure Token where
  start : Nat
  stop : Nat
  scopes : List Scope
  deriving Repr, DecidableEq, Inhabited

namespace Token

def range (token : Token) : Range := ⟨token.start, token.stop⟩

def value (token : Token) (line : Text) : List Char := line.slice token.range

def clip (length : Nat) (token : Token) : Token :=
  { token with stop := min token.stop length }

end Token

def mergeFrom : Token → List Token → List Token
  | token, [] => [token]
  | token, next :: rest =>
      if token.scopes == next.scopes && token.stop == next.start then
        mergeFrom { token with stop := next.stop } rest
      else
        token :: mergeFrom next rest

def mergeTokens : List Token → List Token
  | [] => []
  | token :: rest => mergeFrom token rest

def clipTokens (length : Nat) (tokens : List Token) : List Token :=
  (tokens.filter (·.start < length)).map (Token.clip length)

structure TokenStream where
  tokens : List Token := []
  position : Nat
  deriving Repr, DecidableEq, Inhabited

namespace TokenStream

/-- Give the text from the current position up to `stop` its scopes, unless it is empty. -/
def produce (stream : TokenStream) (stop : Nat) (scopes : List Scope) : TokenStream :=
  if stop ≤ stream.position then stream
  else ⟨stream.tokens ++ [⟨stream.position, stop, scopes⟩], stop⟩

/-- Give the text of tokens their scopes, as far as it is not behind the current position. -/
def produceAll (stream : TokenStream) (tokens : List Token) : TokenStream :=
  tokens.foldl (fun stream token => stream.produce token.stop token.scopes) stream

/-- The tokens of a line of `length` bytes: spans end with the line and, with `merge`, neighbours
that have the same scopes are one token.  An empty line has one token, with the given scopes. -/
def finish (stream : TokenStream) (length : Nat) (merge : Bool) (scopes : List Scope) :
    List Token :=
  if length == 0 then [⟨0, 0, scopes⟩]
  else
    let clipped := clipTokens length stream.tokens
    if merge then mergeTokens clipped else clipped

end TokenStream

end ScopeLexer
