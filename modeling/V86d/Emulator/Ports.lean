import V86d.Emulator.Strings

/-!
# Accesses to ports

The instructions that move one value between the accumulator and a port.
-/

namespace V86d

def inAcc (w : Width) (port : U16) : EmuM Unit := do
  let val ← inp w port
  modifyCpu fun x => x.setAcc w val

def outAcc (w : Width) (port : U16) : EmuM Unit := do
  let x ← getCpu
  out w port (x.eax.setWidth w.bits)

def x86emuOpInByteALIMM : EmuM Unit := do
  let port ← fetchByteImm
  inAcc .byte (port.setWidth 16)
  decodeClearSegovr

def x86emuOpInWordAXIMM : EmuM Unit := do
  let port ← fetchByteImm
  let x ← getCpu
  inAcc x.dataWidth (port.setWidth 16)
  decodeClearSegovr

def x86emuOpOutByteIMMAL : EmuM Unit := do
  let port ← fetchByteImm
  outAcc .byte (port.setWidth 16)
  decodeClearSegovr

def x86emuOpOutWordIMMAX : EmuM Unit := do
  let port ← fetchByteImm
  let x ← getCpu
  outAcc x.dataWidth (port.setWidth 16)
  decodeClearSegovr

def x86emuOpInByteALDX : EmuM Unit := do
  let x ← getCpu
  inAcc .byte x.dx
  decodeClearSegovr

def x86emuOpInWordAXDX : EmuM Unit := do
  let x ← getCpu
  inAcc x.dataWidth x.dx
  decodeClearSegovr

def x86emuOpOutByteDXAL : EmuM Unit := do
  let x ← getCpu
  outAcc .byte x.dx
  decodeClearSegovr

def x86emuOpOutWordDXAX : EmuM Unit := do
  let x ← getCpu
  outAcc x.dataWidth x.dx
  decodeClearSegovr

/-- The opcodes of these instructions. -/
def portOpcodes : List U8 := [0xe4, 0xe5, 0xe6, 0xe7, 0xec, 0xed, 0xee, 0xef]

end V86d
