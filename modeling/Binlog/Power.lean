/-!
# Powers

Powers stand for the numbers of digits of a base. A power of natural numbers is always the one
`Nat.pow` computes, also where a development has others in scope.
-/

attribute [default_instance 10000, instance (10000)] instPowNat
