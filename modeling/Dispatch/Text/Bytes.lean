/-!
The bytes of texts in UTF-8.
-/
namespace Dispatch.Text

def bytes (text : String) : List UInt8 := text.toUTF8.data.toList

def ofBytes? (bytes : List UInt8) : Option String := String.fromUTF8? (ByteArray.mk bytes.toArray)

end Dispatch.Text
