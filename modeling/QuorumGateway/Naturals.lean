/-!
Powers and sums of natural numbers. They are those that the language comes with, also where a library of algebra has
its own for every monoid: a definition means the same whatever it stands next to.
-/

attribute [default_instance (high + 1)] instPowNat
attribute [instance (high)] instPowNat
attribute [instance (high)] Zero.ofOfNat0
