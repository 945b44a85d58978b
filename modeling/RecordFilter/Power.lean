/-!
# Powers

Powers of natural numbers and integers are those of the core library in every module, also in one
that imports the powers of monoids.
-/

attribute [instance (2000), default_instance 20000] instPowNat
