import Greybus.Kind

/-! How a node tells its kind: by its first compatible, which is compared as it is
written, with its quotes on. -/
namespace Greybus.Kind

def interfaceCompatible : String := "\"zephyr,greybus-interface\""

def stringCompatible : String := "\"zephyr,greybus-string\""

def bundleCompatible : String := "\"zephyr,greybus-bundle\""

def cportCompatibles : List String :=
  ["\"zephyr,greybus-control\"", "\"zephyr,greybus-gpio-controller\"",
   "\"zephyr,greybus-i2c-controller\"", "\"zephyr,greybus-spi-controller\""]

def compatibles : Kind → List String
  | .interface => [interfaceCompatible]
  | .string => [stringCompatible]
  | .bundle => [bundleCompatible]
  | .cport => cportCompatibles

def ofCompatible? (compatible : String) : Option Kind :=
  if compatible = interfaceCompatible then some .interface
  else if compatible = stringCompatible then some .string
  else if compatible = bundleCompatible then some .bundle
  else if cportCompatibles.contains compatible then some .cport
  else none

theorem ofCompatibleIff {compatible : String} {kind : Kind} :
    ofCompatible? compatible = some kind ↔ compatible ∈ kind.compatibles := by
  constructor
  · intro found
    unfold ofCompatible? at found
    split at found
    next same =>
      cases found
      exact List.mem_singleton.mpr same
    split at found
    next same =>
      cases found
      exact List.mem_singleton.mpr same
    split at found
    next same =>
      cases found
      exact List.mem_singleton.mpr same
    split at found
    next listed =>
      cases found
      exact List.contains_iff_mem.mp listed
    contradiction
  · intro member
    have apart : ∀ kind ∈ all, ∀ c ∈ kind.compatibles, ofCompatible? c = some kind := by decide
    exact apart kind (memAll kind) compatible member

end Greybus.Kind
