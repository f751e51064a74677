/-!
# Powers

Powers of numbers are those of the core library, also where a library of algebra has its own.
-/

attribute [instance (20000), default_instance 20000] instPowNat
