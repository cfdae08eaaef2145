/-! The attributes that the bindings of Greybus nodes define: the first compatible,
the id, the quoted text, the codes and the handles of an interface. Nothing else
that a node says about itself matters to a manifest. -/
namespace Greybus.Devicetree.Binding

def compatible : String := "compatible_IDX_0"

def id : String := "id"

def vendorHandle : String := "vendor_string_id_IDX_0_PH"

def productHandle : String := "product_string_id_IDX_0_PH"

def text : String := "greybus_string"

def bundleClass : String := "bundle_class"

def protocol : String := "cport_protocol"

def all : List String :=
  [compatible, id, text, bundleClass, protocol, vendorHandle, productHandle]

/-- The name under which a parent link is reported, though it is no attribute. -/
def parent : String := "PARENT"

end Greybus.Devicetree.Binding
