import RecordAlgebra.Expr.Basic

/-!
# Equal expressions

Two expressions are the same if they are put together in the same way from the
same types and equal values. Values may contain items, so finding this out may
have effects.
-/

namespace RecordAlgebra.Expr

variable {m : Type → Type} [Monad m]

/-- The second test is made only if the first one holds. -/
def andThen (a b : m Bool) : m Bool := do if ← a then b else pure false

mutual

def same (items : ItemRef → ItemRef → m Bool) : Expr → Expr → m Bool
  | .context n s, .context k t => pure (n == k && s == t)
  | .literal v, .literal w => Value.equal items v w
  | .field a name s, .field b other t => andThen (same items a b) (pure (name == other && s == t))
  | .comparison op a b, .comparison op' a' b' =>
      andThen (same items a a') <| andThen (same items b b') (pure (op == op'))
  | .boolean op as, .boolean op' bs => if op == op' then sameAll items as bs else pure false
  | .negation op a, .negation op' b => if op == op' then same items a b else pure false
  | .arithmetic op a b s, .arithmetic op' a' b' t =>
      if op == op' then andThen (same items a a') <| andThen (same items b b') (pure (s == t))
      else pure false
  | .merge a b s, .merge a' b' t =>
      andThen (same items a a') <| andThen (same items b b') (pure (s == t))
  | .record as s, .record bs t => andThen (sameFields items as bs) (pure (s == t))
  | .function f a, .function g b => if f.same g then same items a b else pure false
  | .filter a b, .filter a' b' => andThen (same items a a') (same items b b')
  | .map a b s, .map a' b' t =>
      andThen (same items a a') <| andThen (same items b b') (pure (s == t))
  | .sort a as, .sort b bs => andThen (same items a b) (sameKeys items as bs)
  | .groupBy a b c s, .groupBy a' b' c' t =>
      andThen (same items a a') <| andThen (same items b b') <|
        andThen (same items c c') (pure (s == t))
  | .aggregate op a p s, .aggregate op' b q t =>
      if op == op' then
        andThen (same items a b) <| andThen (sameOption items p q) (pure (s == t))
      else pure false
  | .distinct a, .distinct b => same items a b
  | .slice a start stop, .slice b start' stop' =>
      andThen (same items a b) (pure (start == start' && stop == stop'))
  | .one a d s, .one b d' t =>
      andThen (same items a b) <| andThen (sameOption items d d') (pure (s == t))
  | _, _ => pure false

def sameOption (items : ItemRef → ItemRef → m Bool) : Option Expr → Option Expr → m Bool
  | none, none => pure true
  | some a, some b => same items a b
  | _, _ => pure false

def sameAll (items : ItemRef → ItemRef → m Bool) : List Expr → List Expr → m Bool
  | [], [] => pure true
  | a :: as, b :: bs => andThen (same items a b) (sameAll items as bs)
  | _, _ => pure false

def sameFields (items : ItemRef → ItemRef → m Bool) :
    List (String × Expr) → List (String × Expr) → m Bool
  | [], [] => pure true
  | (name, a) :: as, (other, b) :: bs =>
      if name == other then andThen (same items a b) (sameFields items as bs) else pure false
  | _, _ => pure false

def sameKeys (items : ItemRef → ItemRef → m Bool) :
    List (Expr × Direction) → List (Expr × Direction) → m Bool
  | [], [] => pure true
  | (a, direction) :: as, (b, direction') :: bs =>
      andThen (same items a b) <|
        if direction == direction' then sameKeys items as bs else pure false
  | _, _ => pure false

end

end RecordAlgebra.Expr
