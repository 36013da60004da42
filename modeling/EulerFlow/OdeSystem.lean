import EulerFlow.Expr.Basic

namespace EulerFlow

/-- The equation `d symbol / dt = equation`. -/
structure Ode where
  symbol : String
  equation : Expr

/-- Differential equations in order of registration, at most one for each symbol. The
order is that of the columns and of the updates within a step. -/
structure OdeSystem where
  entries : List Ode
  distinct : (entries.map Ode.symbol).Nodup

namespace OdeSystem

/-- No equations. -/
def empty : OdeSystem where
  entries := []
  distinct := by simp

/-- The symbols in order of registration. -/
def symbols (s : OdeSystem) : List String :=
  s.entries.map Ode.symbol

/-- The number of equations. -/
def dimension (s : OdeSystem) : Nat :=
  s.entries.length

/-- No equation has been registered. -/
def isEmpty (s : OdeSystem) : Bool :=
  s.entries.isEmpty

/-- Exchanges the equation of a symbol where it stands. -/
def replace (s : OdeSystem) (symbol : String) (equation : Expr) : OdeSystem where
  entries := s.entries.map fun ode => ⟨ode.symbol, if ode.symbol = symbol then equation else ode.equation⟩
  distinct := by simpa [Function.comp_def] using s.distinct

/-- Adds an equation for a new symbol behind all others. -/
def append (s : OdeSystem) (symbol : String) (equation : Expr) (fresh : symbol ∉ s.symbols) : OdeSystem where
  entries := s.entries ++ [⟨symbol, equation⟩]
  distinct := by
    rw [List.map_append, List.nodup_append]
    refine ⟨s.distinct, by simp, ?_⟩
    intro a old b new same
    simp only [List.map_cons, List.map_nil, List.mem_singleton] at new
    exact fresh (new ▸ same ▸ old)

/-- Registers an equation. A symbol registered before keeps its place. -/
def insert (s : OdeSystem) (symbol : String) (equation : Expr) : OdeSystem :=
  if fresh : symbol ∉ s.symbols then s.append symbol equation fresh else s.replace symbol equation

end OdeSystem

end EulerFlow
