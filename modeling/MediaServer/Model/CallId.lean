import MediaServer.Model.Md5

/-! # Call ids: `buildCallId` of `streammanager.cpp` -/

namespace MediaServer

open CString Md5

/-- `snprintf((char *)buff, 127, "%s%d", ip.c_str(), port)` on a `buff` of 128 zeros. -/
def callIdText (ip : List UInt8) (port : Int) : List UInt8 :=
  let text := (cstr ip ++ printInt port).take 126
  text ++ List.replicate (128 - text.length) 0

def hexDigit (h : UInt8) : UInt8 :=
  if h ≤ 0x9 then h + 0x30 else h + 0x57

/-- `md5sum`, with the zero at its end. -/
def md5sum (md_value : List UInt8) : List UInt8 :=
  (md_value.flatMap fun (md : UInt8) =>
    [hexDigit ((md &&& 0xf0) >>> 4), hexDigit (md &&& 0x0f)]) ++ [0]

/-- `mem` is what the uninitialized `mdctx` holds. -/
def buildCallId (mem : Nat → UInt8) (ip : List UInt8) (port : Int) : Option (List UInt8) :=
  let buff := callIdText ip port
  let mdctx := md5Init ((List.range 64).map mem)
  (md5Append mdctx buff (cstr buff).length).bind fun mdctx =>
    (md5Finish mdctx).map fun md_value => cstr (md5sum md_value)

end MediaServer
