import HiMpu.GpioChip
import HiMpu.IndexedLoop

/-!
# The ioctls on several pins

`gpio_cmd_reuse`, `gpio_cmd_direction` and `gpio_cmd_level` of `drivers/gpio/gpio_ker.c`, with
the table of `drivers/gpio/gpio_pinmux_tbl.c`.  A request names its pins by one mask for each of
the five groups.
-/

namespace HiMpu.GpioIoctl

open GpioChip IndexedLoop

def gpioMaxGroupNum : ℕ := 5
def group3Index : ℕ := 3
def group4Index : ℕ := 4
def group3InvalidMask : BitVec 32 := 0x80000000
def group4InvalidMask : BitVec 32 := 0x3FFFFFFF
def funcGpio : ℕ := 1
def regTypeIor : ℕ := 0
def regTypeIot : ℕ := 1
def regTypeLp : ℕ := 2

def efault : ℤ := 14
def enodev : ℤ := 19
def enotty : ℤ := 25

structure GpioInfo where
  gpioValue : ℕ → BitVec 32
  gpioMask : ℕ → BitVec 32

structure Device where
  regs : Regs
  ioInit : ℕ → Bool
  ioConfig : ℕ → ℕ → BitVec 32

/-! ## The pin-mux table -/

structure PinFunc where
  func : ℕ
  regType : ℕ
  regOff : ℕ
  regMask : BitVec 32
  regVal : BitVec 32
  deriving DecidableEq

structure GpioFuncSet where
  pin : ℕ
  funcs : List PinFunc
  deriving DecidableEq

def ior (pin off : ℕ) (mask : BitVec 32) : GpioFuncSet :=
  ⟨pin, [⟨funcGpio, regTypeIor, off, mask, 0x002⟩]⟩

def iot (pin off : ℕ) (mask : BitVec 32) : GpioFuncSet :=
  ⟨pin, [⟨funcGpio, regTypeIot, off, mask, 0x002⟩]⟩

def gIoFuncSet : List GpioFuncSet :=
  [ior 0 0x000 0x003, ior 1 0x004 0x003, ior 2 0x008 0x003, ior 3 0x00c 0x003, ior 4 0x010 0x003,
   ior 5 0x014 0x003, ior 6 0x014 0x003, ior 7 0x014 0x003, ior 8 0x018 0x003, ior 9 0x018 0x003,
   ior 10 0x018 0x003, ior 11 0x018 0x003, ior 12 0x018 0x003, ior 13 0x018 0x003,
   ior 14 0x018 0x003, ior 15 0x01c 0x007, ior 16 0x024 0x007, ior 17 0x028 0x007,
   ior 18 0x02c 0x007, ior 19 0x030 0x007, ior 20 0x034 0x007, ior 21 0x038 0x007,
   ior 22 0x03c 0x007, ior 23 0x040 0x007, ior 24 0x044 0x007, ior 25 0x044 0x007,
   ior 26 0x048 0x007, ior 27 0x048 0x007, ior 28 0x04c 0x007, ior 29 0x04c 0x007,
   ior 30 0x050 0x007, ior 31 0x050 0x007, ior 32 0x054 0x007, ior 33 0x054 0x007,
   ior 34 0x058 0x003, ior 35 0x058 0x003, ior 36 0x058 0x003, ior 37 0x060 0x007,
   ior 38 0x064 0x007, ior 39 0x064 0x007, ior 40 0x068 0x003, ior 41 0x068 0x003,
   ior 42 0x068 0x003, ior 43 0x06c 0x003, ior 44 0x06c 0x003, ior 45 0x06c 0x003,
   ior 46 0x070 0x007, ior 47 0x074 0x007, ior 48 0x078 0x007, ior 49 0x07c 0x007,
   ior 50 0x080 0x007, ior 51 0x084 0x007, ior 52 0x088 0x007, ior 53 0x08c 0x007,
   ior 54 0x090 0x007, ior 55 0x094 0x007, ior 56 0x098 0x003, ior 57 0x09c 0x003,
   ior 58 0x09c 0x003, ior 59 0x0a0 0x003, ior 60 0x0a0 0x003, ior 61 0x0a0 0x003,
   ior 62 0x0a0 0x003, ior 63 0x0a0 0x003, iot 64 0x000 0x003, iot 65 0x004 0x003,
   iot 66 0x008 0x003, iot 67 0x008 0x003, iot 68 0x00c 0x003, iot 69 0x00c 0x003,
   iot 70 0x010 0x003, iot 71 0x014 0x003, iot 72 0x01c 0x003, iot 73 0x020 0x003,
   iot 74 0x024 0x003, iot 75 0x024 0x003, iot 76 0x028 0x003, iot 77 0x02c 0x003,
   iot 78 0x030 0x003, iot 79 0x034 0x007, iot 80 0x038 0x007, iot 81 0x03c 0x007,
   iot 82 0x040 0x007, iot 83 0x044 0x007, iot 84 0x048 0x007, iot 85 0x04c 0x007,
   iot 86 0x050 0x007, iot 87 0x054 0x007, iot 88 0x058 0x007, iot 89 0x05c 0x007,
   iot 90 0x060 0x007, iot 91 0x064 0x007, iot 92 0x064 0x007, iot 93 0x068 0x007,
   iot 94 0x068 0x007, iot 95 0x06c 0x003, iot 96 0x070 0x003, iot 97 0x074 0x003,
   iot 98 0x078 0x003, iot 99 0x07c 0x003, iot 100 0x080 0x003, iot 101 0x084 0x003,
   iot 102 0x084 0x003, iot 103 0x088 0x007, iot 104 0x08c 0x007, iot 105 0x090 0x007,
   iot 106 0x094 0x007, iot 107 0x098 0x007, iot 108 0x09c 0x007, iot 109 0x0a0 0x003,
   iot 110 0x0a4 0x007, iot 111 0x0a8 0x007, iot 112 0x0ac 0x007, iot 113 0x0b0 0x007,
   iot 114 0x0b0 0x007, iot 115 0x0b4 0x007, iot 116 0x0b4 0x007, iot 117 0x0b8 0x007,
   iot 118 0x0b8 0x007, iot 119 0x0bc 0x007, iot 120 0x0bc 0x007, iot 121 0x0c0 0x007,
   iot 122 0x0c4 0x007, iot 123 0x0c8 0x007, iot 124 0x0c8 0x007, iot 125 0x0cc 0x007,
   iot 126 0x0cc 0x007]

/-! ## Pin-mux registers -/

def ioConfigRegRead (d : Device) (type off : ℕ) : ℤ × BitVec 32 :=
  if d.ioInit type then (0, d.ioConfig type off) else (-enodev, 0)

def ioConfigRegReadWrite (d : Device) (type off : ℕ) (mask val : BitVec 32) : ℤ × Device :=
  if d.ioInit type then
    let regVal := d.ioConfig type off &&& ~~~mask ||| (val &&& mask)
    let bank := Function.update (d.ioConfig type) off regVal
    (0, { d with ioConfig := Function.update d.ioConfig type bank })
  else (-enodev, d)

def ioCfgRegReadWriteByType (d : Device) (f : PinFunc) : ℤ × Device :=
  if f.regType = regTypeIor ∨ f.regType = regTypeIot ∨ f.regType = regTypeLp then
    ioConfigRegReadWrite d f.regType f.regOff f.regMask f.regVal
  else (-efault, d)

def ioCfgRegReadByType (d : Device) (f : PinFunc) : ℤ × BitVec 32 :=
  if f.regType = regTypeIor ∨ f.regType = regTypeIot ∨ f.regType = regTypeLp then
    let (ret, tempVal) := ioConfigRegRead d f.regType f.regOff
    (ret, f.regMask &&& tempVal)
  else (-efault, 0)

def ioCfgGetFuncIndex (pinSet : GpioFuncSet) (funcType : ℕ) : Option ℕ :=
  pinSet.funcs.findIdx? fun f => f.func = funcType

def gpioIsSpecPinSkipProcess (pin : ℕ) : Bool :=
  pin = specGpioBit30Pin ∨ pin = specGpioBit31Pin

def gpioSetReuseByPinfunc (d : Device) (pin funcType : ℕ) : ℤ × Device :=
  if !gpioPinNumValid pin then (-einval, d)
  else if gpioIsSpecPinSkipProcess pin then (0, d)
  else
    let pinSet := gIoFuncSet.getD pin ⟨0, []⟩
    if pinSet.pin ≠ pin then (-einval, d)
    else
      match ioCfgGetFuncIndex pinSet funcType with
      | none => (-efault, d)
      | some funcIndex =>
        ioCfgRegReadWriteByType d (pinSet.funcs.getD funcIndex ⟨0, 0, 0, 0, 0⟩)

def gpioGetReuseByPin (d : Device) (pin : ℕ) : ℤ :=
  if !gpioPinNumValid pin then -1
  else if gpioIsSpecPinSkipProcess pin then 0
  else
    let pinSet := gIoFuncSet.getD pin ⟨0, []⟩
    if pinSet.pin ≠ pin then -1
    else
      match ioCfgGetFuncIndex pinSet funcGpio with
      | none => -1
      | some funcIndex =>
        let (ret, cfgVal) := ioCfgRegReadByType d (pinSet.funcs.getD 0 ⟨0, 0, 0, 0, 0⟩)
        if ret ≠ 0 then -1
        else if cfgVal = (pinSet.funcs.getD funcIndex ⟨0, 0, 0, 0, 0⟩).regVal then 0
        else 1

def gpioSetReuseStatus (d : Device) (group pin : ℕ) : ℤ × Device :=
  gpioSetReuseByPinfunc d (group * gpioGroupMaxPinNum + pin) funcGpio

def gpioGetReuseStatus (d : Device) (group pin : ℕ) : ℤ :=
  gpioGetReuseByPin d (group * gpioGroupMaxPinNum + pin)

/-! ## Loops over the pins of a request -/

def pinMasked (info : GpioInfo) (group pin : ℕ) : Bool :=
  info.gpioMask group >>> pin &&& 1 ≠ 0

def forPins {σ : Type} (info : GpioInfo) (body : ℕ → ℕ → σ → σ) (s : σ) : σ :=
  (List.range gpioMaxGroupNum).foldl (fun s group =>
    if info.gpioMask group = 0 then s
    else
      (List.range gpioGroupMaxPinNum).foldl (fun s pin =>
        if pinMasked info group pin then body group pin s else s) s) s

def anyPin (info : GpioInfo) (fails : ℕ → ℕ → Bool) : Bool :=
  (List.range gpioMaxGroupNum).any fun group =>
    info.gpioMask group ≠ 0 && (List.range gpioGroupMaxPinNum).any fun pin =>
      pinMasked info group pin && fails group pin

def gpioIsReused (d : Device) (info : GpioInfo) : ℤ :=
  if anyPin info fun group pin => gpioGetReuseStatus d group pin ≠ 0 then -enodev else 0

def gpioCheckDirection (d : Device) (info : GpioInfo) (dir : BitVec 32) : ℤ :=
  if anyPin info fun group pin =>
    gpioGetRegBitVal d.regs group regGpioDir (1#32 <<< pin) ≠ dir then -enodev else 0

def gpioSetReuse (d : Device) (info : GpioInfo) : ℤ × Device :=
  forPins info (fun group pin s => gpioSetReuseStatus s.2 group pin) (0, d)

def orValue (values : ℕ → BitVec 32) (group pin : ℕ) (value : BitVec 32) : ℕ → BitVec 32 :=
  Function.update values group (values group ||| value <<< pin)

def gpioGetReuse (d : Device) (info : GpioInfo) : GpioInfo where
  gpioValue :=
    forPins info (fun group pin values =>
      orValue values group pin (BitVec.ofInt 32 (gpioGetReuseStatus d group pin))) fun _ => 0
  gpioMask := info.gpioMask

def gpioSaveLevel (r : Regs) (group pin : ℕ) : Regs :=
  let pinMask := 1#32 <<< pin
  let r := gpioSetRegBitVal r group regGpioInten pinMask 0
  let r := gpioSetRegBitVal r group regGpioDir pinMask gpioDirInput
  let level := gpioGetRegBitVal r group regGpioInput pinMask &&& 1
  let r := gpioSetRegBitVal r group regGpioInten pinMask 0
  gpioSetRegBitVal r group regGpioOutput pinMask level.toNat

def gpioSetDir (r : Regs) (group pin : ℕ) (dir : BitVec 32) : Regs :=
  let pinMask := 1#32 <<< pin
  let oldDir := gpioGetRegBitVal r group regGpioDir pinMask
  let r := if dir.toNat = gpioDirOutput ∧ oldDir ≠ dir then gpioSaveLevel r group pin else r
  gpioSetRegBitVal r group regGpioDir pinMask dir.toNat

def gpioGetDir (d : Device) (info : GpioInfo) : ℤ × GpioInfo :=
  if gpioIsReused d info ≠ 0 then (-enodev, info)
  else
    let gpioValue := forPins info (fun group pin values =>
      orValue values group pin (gpioGetRegBitVal d.regs group regGpioDir (1#32 <<< pin))) fun _ => 0
    (0, { info with gpioValue := gpioValue })

def gpioGetLevel (d : Device) (info : GpioInfo) : ℤ × Device × GpioInfo :=
  if gpioIsReused d info ≠ 0 then (gpioIsReused d info, d, info)
  else if gpioCheckDirection d info 0 ≠ 0 then (gpioCheckDirection d info 0, d, info)
  else
    let (regs, gpioValue) := forPins info (fun group pin s =>
      let regs := gpioSetRegBitVal s.1 group regGpioInten (1#32 <<< pin) 0
      let value := gpioGetRegBitVal regs group regGpioInput (1#32 <<< pin)
      (regs, orValue s.2 group pin value)) (d.regs, fun _ => 0)
    (0, { d with regs := regs }, { info with gpioValue := gpioValue })

def gpioGetOutputLevel (d : Device) (info : GpioInfo) : ℤ × GpioInfo :=
  if gpioIsReused d info ≠ 0 then (-enodev, info)
  else
    let gpioValue := forPins info (fun group pin values =>
      orValue values group pin (gpioGetRegBitVal d.regs group regGpioInput (1#32 <<< pin)))
        fun _ => 0
    (0, { info with gpioValue := gpioValue })

def gpioSetLevel (d : Device) (info : GpioInfo) : ℤ × Device :=
  if gpioIsReused d info ≠ 0 then (gpioIsReused d info, d)
  else if gpioCheckDirection d info 1 ≠ 0 then (gpioCheckDirection d info 1, d)
  else
    let regs := forPins info (fun group pin regs =>
      let pinMask := 1#32 <<< pin
      let value := info.gpioValue group >>> pin &&& 1
      let regs := gpioSetRegBitVal regs group regGpioInten pinMask 0
      gpioSetRegBitVal regs group regGpioOutput pinMask value.toNat) d.regs
    (0, { d with regs := regs })

def gpioCmdSetDir (d : Device) (info : GpioInfo) : ℤ × Device :=
  if gpioIsReused d info ≠ 0 then (gpioIsReused d info, d)
  else
    let regs := forPins info (fun group pin regs =>
      gpioSetDir regs group pin (info.gpioValue group >>> pin &&& 1)) d.regs
    (0, { d with regs := regs })

def gpioCheckPin (info : GpioInfo) : ℤ :=
  if info.gpioMask group3Index &&& group3InvalidMask ≠ 0 then -einval
  else if info.gpioValue group3Index &&& group3InvalidMask ≠ 0 then -einval
  else if info.gpioMask group4Index &&& group4InvalidMask ≠ 0 then -einval
  else if info.gpioValue group4Index &&& group4InvalidMask ≠ 0 then -einval
  else 0

/-! ## The commands -/

inductive Cmd
  | setReuse
  | getReuse
  | setDir
  | getDir
  | setLevel
  | getLevel
  | outputGetLevel

structure Request where
  info : GpioInfo
  copyFrom : Bool
  copyTo : Bool

structure Outcome where
  ret : ℤ
  device : Device
  out : Option GpioInfo

def gpioInfoCopyAndCheck (req : Request) : ℤ :=
  if !req.copyFrom then -efault else gpioCheckPin req.info

def copyToUser (req : Request) (d : Device) (info : GpioInfo) : Outcome :=
  if req.copyTo then ⟨0, d, some info⟩ else ⟨-efault, d, none⟩

def gpioCmdReuse (d : Device) (cmd : Cmd) (req : Request) : Outcome :=
  if gpioInfoCopyAndCheck req ≠ 0 then ⟨gpioInfoCopyAndCheck req, d, none⟩
  else
    match cmd with
    | .setReuse => ⟨(gpioSetReuse d req.info).1, (gpioSetReuse d req.info).2, none⟩
    | .getReuse => copyToUser req d (gpioGetReuse d req.info)
    | _ => ⟨-enotty, d, none⟩

def gpioCmdDirection (d : Device) (cmd : Cmd) (req : Request) : Outcome :=
  if gpioInfoCopyAndCheck req ≠ 0 then ⟨gpioInfoCopyAndCheck req, d, none⟩
  else
    match cmd with
    | .setDir => ⟨(gpioCmdSetDir d req.info).1, (gpioCmdSetDir d req.info).2, none⟩
    | .getDir =>
      let (ret, info) := gpioGetDir d req.info
      if ret ≠ 0 then ⟨ret, d, none⟩ else copyToUser req d info
    | _ => ⟨-enotty, d, none⟩

def gpioCmdLevel (d : Device) (cmd : Cmd) (req : Request) : Outcome :=
  if gpioInfoCopyAndCheck req ≠ 0 then ⟨gpioInfoCopyAndCheck req, d, none⟩
  else
    match cmd with
    | .setLevel => ⟨(gpioSetLevel d req.info).1, (gpioSetLevel d req.info).2, none⟩
    | .getLevel =>
      let (ret, d, info) := gpioGetLevel d req.info
      if ret ≠ 0 then ⟨ret, d, none⟩ else copyToUser req d info
    | .outputGetLevel =>
      let (ret, info) := gpioGetOutputLevel d req.info
      if ret ≠ 0 then ⟨ret, d, none⟩ else copyToUser req d info
    | _ => ⟨-enotty, d, none⟩

def gpioIoctl (d : Device) (cmd : Cmd) (req : Request) : Outcome :=
  match cmd with
  | .setReuse => gpioCmdReuse d cmd req
  | .getReuse => gpioCmdReuse d cmd req
  | .setDir => gpioCmdDirection d cmd req
  | .getDir => gpioCmdDirection d cmd req
  | .getLevel => gpioCmdLevel d cmd req
  | .outputGetLevel => gpioCmdLevel d cmd req
  | .setLevel => gpioCmdLevel d cmd req

/-! ## What a command has to do -/

def named (info : GpioInfo) : List (ℕ × ℕ) :=
  (grid gpioMaxGroupNum gpioGroupMaxPinNum).filter fun i => pinMasked info i.1 i.2

def pinBit (r : Regs) (reg : ℕ) (i : ℕ × ℕ) : Bool := (r i.1 reg).getLsbD i.2

/-- An error changes nothing.  A success gives register `reg` of the pins named their values,
and keeps every register of the other pins. -/
def SetsPins (d : Device) (info : GpioInfo) (reg : ℕ) (o : Outcome) : Prop :=
  o.ret ≠ 0 ∧ o.device.regs = d.regs ∨
    o.ret = 0 ∧ (∀ i ∈ named info, pinBit o.device.regs reg i = (info.gpioValue i.1).getLsbD i.2) ∧
      ∀ i ∉ named info, ∀ reg', pinBit o.device.regs reg' i = pinBit d.regs reg' i

/-- Nothing changes, and the user gets a bit for each pin named and zeros elsewhere. -/
def Answers (d : Device) (info : GpioInfo) (f : ℕ × ℕ → Bool) (o : Outcome) : Prop :=
  o.device = d ∧ ∀ out, o.out = some out → ∀ i ∈ grid gpioMaxGroupNum gpioGroupMaxPinNum,
    (out.gpioValue i.1).getLsbD i.2 = (pinMasked info i.1 i.2 && f i)

structure IoctlCorrect (d : Device) (req : Request) : Prop where
  setLevel : SetsPins d req.info regGpioOutput (gpioIoctl d .setLevel req)
  setDir : SetsPins d req.info regGpioDir (gpioIoctl d .setDir req)
  sampled : (gpioIoctl d .setDir req).ret = 0 → ∀ i ∈ named req.info,
    pinBit d.regs regGpioDir i = false → (req.info.gpioValue i.1).getLsbD i.2 = true →
      pinBit (gpioIoctl d .setDir req).device.regs regGpioOutput i = pinBit d.regs regGpioInput i
  getDir : Answers d req.info (pinBit d.regs regGpioDir) (gpioIoctl d .getDir req)
  outputGetLevel :
    Answers d req.info (pinBit d.regs regGpioInput) (gpioIoctl d .outputGetLevel req)
  getReuse : Answers d req.info (fun i => gpioGetReuseStatus d i.1 i.2 ≠ 0)
    (gpioIoctl d .getReuse req)
  setReuse : (gpioIoctl d .setReuse req).ret = 0 →
    ∀ i ∈ named req.info, (gpioSetReuseStatus d i.1 i.2).1 = 0

def Unmapped (d : Device) (i : ℕ × ℕ) : Prop :=
  i.1 < 4 ∧ d.ioInit (if i.1 < 2 then regTypeIor else regTypeIot) = false

structure ReuseAllowed (d : Device) (req : Request) : Prop where
  /-- No pin above one that cannot be read is left out of the mask. -/
  getReuse : req.copyFrom = true → req.copyTo = true → ∀ i ∈ named req.info, Unmapped d i →
    ∀ pin, i.2 < pin → pin < gpioGroupMaxPinNum → (i.1, pin) ∈ named req.info
  setReuse : req.copyFrom = true → ∀ i ∈ named req.info, Unmapped d i →
    ∃ last, (named req.info).getLast? = some last ∧ Unmapped d last

section Loops

variable {info : GpioInfo}

theorem and_one_eq (x : BitVec 32) (pin : ℕ) :
    x >>> pin &&& 1 = if x.getLsbD pin = true then 1 else 0 := by
  have hone : (1 : BitVec 32) = 1#32 := rfl
  have hbit : (x >>> pin).getLsbD 0 = x.getLsbD pin := by
    simp
  rw [hone, BitVec.and_one_eq_setWidth_ofBool_getLsbD, hbit]
  cases x.getLsbD pin with
  | false => rfl
  | true => rfl

theorem pinMasked_eq (group pin : ℕ) :
    pinMasked info group pin = (info.gpioMask group).getLsbD pin := by
  unfold pinMasked
  rw [and_one_eq]
  cases (info.gpioMask group).getLsbD pin with
  | false => rfl
  | true => rfl

theorem mem_named {i : ℕ × ℕ} :
    i ∈ named info ↔
      (i.1 < gpioMaxGroupNum ∧ i.2 < gpioGroupMaxPinNum) ∧ pinMasked info i.1 i.2 = true := by
  unfold named
  rw [List.mem_filter, mem_grid]

theorem nodup_named (info : GpioInfo) : (named info).Nodup :=
  (nodup_grid _ _).filter _

theorem pinMasked_of_zero {group : ℕ} (h : info.gpioMask group = 0) (pin : ℕ) :
    pinMasked info group pin = false := by
  rw [pinMasked_eq, h]
  simp

theorem forPins_eq {σ : Type} (body : ℕ → ℕ → σ → σ) (s : σ) :
    forPins info body s = (named info).foldl (fun s i => body i.1 i.2 s) s := by
  have hgroup : ∀ s group,
      (if info.gpioMask group = 0 then s
        else
          (List.range gpioGroupMaxPinNum).foldl (fun s pin =>
            if pinMasked info group pin then body group pin s else s) s) =
        (List.range gpioGroupMaxPinNum).foldl (fun s pin =>
          if pinMasked info group pin then body group pin s else s) s := by
    intro s group
    split
    next hzero =>
      simp [pinMasked_of_zero hzero]
    next => rfl
  unfold forPins named
  simp only [hgroup]
  rw [foldl_grid _ _ (fun group pin s => if pinMasked info group pin then body group pin s else s),
    foldl_filter_eq (fun i : ℕ × ℕ => pinMasked info i.1 i.2) (fun i s => body i.1 i.2 s)]

end Loops

/-! ## The pin-mux -/

section PinMux

variable {d : Device} {info : GpioInfo}

theorem gIoFuncSet_row {pin : ℕ} (h : pin < maxGpioCnt) :
    ∃ off mask, gIoFuncSet.getD pin ⟨0, []⟩ =
      ⟨pin, [⟨funcGpio, if pin < 64 then regTypeIor else regTypeIot, off, mask, 0x002⟩]⟩ := by
  have hrow : ∀ p < maxGpioCnt, gIoFuncSet.getD p ⟨0, []⟩ =
      ⟨p, [⟨funcGpio, if p < 64 then regTypeIor else regTypeIot,
        ((gIoFuncSet.getD p ⟨0, []⟩).funcs.headD ⟨0, 0, 0, 0, 0⟩).regOff,
        ((gIoFuncSet.getD p ⟨0, []⟩).funcs.headD ⟨0, 0, 0, 0, 0⟩).regMask, 0x002⟩]⟩ := by
    decide +kernel
  exact ⟨_, _, hrow pin h⟩

theorem getLsbD_of_and_zero {x mask : BitVec 32} {pin : ℕ} (h : x &&& mask = 0)
    (hmask : mask.getLsbD pin = true) : x.getLsbD pin = false := by
  have hbit := congrArg (fun y : BitVec 32 => y.getLsbD pin) h
  simpa [hmask] using hbit

theorem named_pin (hcheck : gpioCheckPin info = 0) {i : ℕ × ℕ} (hi : i ∈ named info) :
    (i.1 < 4 ∧ i.1 * gpioGroupMaxPinNum + i.2 < maxGpioCnt) ∨
      (i.1 = 4 ∧ gpioIsSpecPinSkipProcess (i.1 * gpioGroupMaxPinNum + i.2) = true) := by
  obtain ⟨⟨hgroup, hpin⟩, hmasked⟩ := mem_named.mp hi
  rw [pinMasked_eq] at hmasked
  obtain ⟨group, pin⟩ := i
  simp only at hgroup hpin hmasked ⊢
  have hgroup' : group < 5 := hgroup
  have hpin' : pin < 32 := hpin
  have hmax : maxGpioCnt = 127 := rfl
  have hsize : gpioGroupMaxPinNum = 32 := rfl
  have hmask3 : info.gpioMask 3 &&& group3InvalidMask = 0 := by
    by_contra hne
    have hfail : gpioCheckPin info = -einval := if_pos hne
    rw [hfail] at hcheck
    cases hcheck
  have hmask4 : info.gpioMask 4 &&& group4InvalidMask = 0 := by
    by_contra hne
    have hne' : info.gpioMask group4Index &&& group4InvalidMask ≠ 0 := hne
    unfold gpioCheckPin at hcheck
    split_ifs at hcheck <;> cases hcheck
  rw [hsize, hmax]
  by_cases hlow : group < 3
  · left
    omega
  · by_cases hthree : group = 3
    · subst hthree
      left
      have hne : pin ≠ 31 := by
        rintro rfl
        rw [getLsbD_of_and_zero hmask3 (by decide)] at hmasked
        cases hmasked
      omega
    · obtain rfl : group = 4 := by omega
      right
      have hinvalid : ∀ p < 30, group4InvalidMask.getLsbD p = true := by decide
      have hge : 30 ≤ pin := by
        by_contra hlt
        rw [getLsbD_of_and_zero hmask4 (hinvalid pin (by omega))] at hmasked
        cases hmasked
      refine ⟨rfl, ?_⟩
      unfold gpioIsSpecPinSkipProcess specGpioBit30Pin specGpioBit31Pin
      rw [decide_eq_true_eq]
      omega

def bankOf (group : ℕ) : ℕ := if group < 2 then regTypeIor else regTypeIot

theorem gpioGetReuseStatus_row {i : ℕ × ℕ} (hgroup : i.1 < 4) (hpin : i.2 < gpioGroupMaxPinNum)
    (h : i.1 * gpioGroupMaxPinNum + i.2 < maxGpioCnt) :
    (d.ioInit (bankOf i.1) = true →
      gpioGetReuseStatus d i.1 i.2 = 0 ∨ gpioGetReuseStatus d i.1 i.2 = 1) ∧
    (d.ioInit (bankOf i.1) = false → gpioGetReuseStatus d i.1 i.2 = -1) ∧
    (d.ioInit (bankOf i.1) = true → (gpioSetReuseStatus d i.1 i.2).1 = 0) ∧
    (d.ioInit (bankOf i.1) = false → (gpioSetReuseStatus d i.1 i.2).1 ≠ 0) := by
  have hsize : gpioGroupMaxPinNum = 32 := rfl
  have hvalid : gpioPinNumValid (i.1 * gpioGroupMaxPinNum + i.2) = true := by
    unfold gpioPinNumValid
    simp [Nat.not_le.mpr h]
  have hspec : gpioIsSpecPinSkipProcess (i.1 * gpioGroupMaxPinNum + i.2) = false := by
    have hlt : i.1 * gpioGroupMaxPinNum + i.2 < 127 := h
    unfold gpioIsSpecPinSkipProcess specGpioBit30Pin specGpioBit31Pin
    rw [decide_eq_false_iff_not]
    omega
  obtain ⟨off, mask, hrow⟩ := gIoFuncSet_row h
  have hbank : (if i.1 * gpioGroupMaxPinNum + i.2 < 64 then regTypeIor else regTypeIot) =
      bankOf i.1 := by
    unfold bankOf
    rw [hsize] at hpin ⊢
    by_cases hlow : i.1 < 2
    · rw [if_pos hlow, if_pos (by omega)]
    · rw [if_neg hlow, if_neg (by omega)]
  have htype : bankOf i.1 = regTypeIor ∨ bankOf i.1 = regTypeIot ∨ bankOf i.1 = regTypeLp := by
    unfold bankOf
    split
    · exact Or.inl rfl
    · exact Or.inr (Or.inl rfl)
  rw [hbank] at hrow
  have hread : gpioGetReuseStatus d i.1 i.2 =
      if d.ioInit (bankOf i.1) = true then
        (if mask &&& d.ioConfig (bankOf i.1) off = 0x002 then 0 else 1) else -1 := by
    unfold gpioGetReuseStatus gpioGetReuseByPin
    simp only [hvalid, hspec, hrow, Bool.not_true, Bool.false_eq_true, if_false, ne_eq,
      not_true_eq_false]
    have hindex : ioCfgGetFuncIndex ⟨i.1 * gpioGroupMaxPinNum + i.2,
        [⟨funcGpio, bankOf i.1, off, mask, 0x002⟩]⟩ funcGpio = some 0 := rfl
    rw [hindex]
    simp only [List.getD_cons_zero, ioCfgRegReadByType, if_pos htype, ioConfigRegRead]
    split
    · simp
    · simp [enodev]
  have hwrite : (gpioSetReuseStatus d i.1 i.2).1 =
      if d.ioInit (bankOf i.1) = true then 0 else -enodev := by
    unfold gpioSetReuseStatus gpioSetReuseByPinfunc
    simp only [hvalid, hspec, hrow, Bool.not_true, Bool.false_eq_true, if_false, ne_eq,
      not_true_eq_false]
    have hindex : ioCfgGetFuncIndex ⟨i.1 * gpioGroupMaxPinNum + i.2,
        [⟨funcGpio, bankOf i.1, off, mask, 0x002⟩]⟩ funcGpio = some 0 := rfl
    rw [hindex]
    simp only [List.getD_cons_zero, ioCfgRegReadWriteByType, if_pos htype, ioConfigRegReadWrite]
    split
    · rfl
    · rfl
  rw [hread, hwrite]
  cases d.ioInit (bankOf i.1) with
  | true =>
    simp only [if_true, true_implies, Bool.true_eq_false, false_implies, and_true]
    split
    · exact Or.inl rfl
    · exact Or.inr rfl
  | false => simp [enodev]

theorem status_named (hcheck : gpioCheckPin info = 0) {i : ℕ × ℕ} (hi : i ∈ named info) :
    (Unmapped d i → gpioGetReuseStatus d i.1 i.2 = -1 ∧ (gpioSetReuseStatus d i.1 i.2).1 ≠ 0) ∧
    (¬ Unmapped d i →
      (gpioGetReuseStatus d i.1 i.2 = 0 ∨ gpioGetReuseStatus d i.1 i.2 = 1) ∧
        (gpioSetReuseStatus d i.1 i.2).1 = 0) := by
  rcases named_pin hcheck hi with ⟨hgroup, hpin⟩ | ⟨hgroup, hspec⟩
  · obtain ⟨hget, hget', hset, hset'⟩ :=
      @gpioGetReuseStatus_row d i hgroup (mem_named.mp hi).1.2 hpin
    constructor
    · intro h
      exact ⟨hget' h.2, hset' h.2⟩
    · intro h
      have hmapped : d.ioInit (bankOf i.1) = true := by
        rw [← Bool.not_eq_false]
        exact fun hfalse => h ⟨hgroup, hfalse⟩
      exact ⟨hget hmapped, hset hmapped⟩
  · have hvalid : gpioPinNumValid (i.1 * gpioGroupMaxPinNum + i.2) = true := by
      unfold gpioIsSpecPinSkipProcess at hspec
      unfold gpioPinNumValid
      rcases of_decide_eq_true hspec with h | h
      · rw [h]
        rfl
      · rw [h]
        rfl
    have hget : gpioGetReuseStatus d i.1 i.2 = 0 := by
      unfold gpioGetReuseStatus gpioGetReuseByPin
      simp [hvalid, hspec]
    have hset : (gpioSetReuseStatus d i.1 i.2).1 = 0 := by
      unfold gpioSetReuseStatus gpioSetReuseByPinfunc
      simp [hvalid, hspec]
    constructor
    · intro h
      have hlt := h.1
      omega
    · intro _
      exact ⟨Or.inl hget, hset⟩

theorem gpioSetReuseStatus_frame {d' : Device} (hinit : d'.ioInit = d.ioInit) (group pin : ℕ) :
    (gpioSetReuseStatus d' group pin).1 = (gpioSetReuseStatus d group pin).1 ∧
      (gpioSetReuseStatus d' group pin).2.ioInit = d.ioInit := by
  have hwrite : ∀ f, (ioCfgRegReadWriteByType d' f).1 = (ioCfgRegReadWriteByType d f).1 ∧
      (ioCfgRegReadWriteByType d' f).2.ioInit = d.ioInit := by
    intro f
    unfold ioCfgRegReadWriteByType ioConfigRegReadWrite
    rw [hinit]
    split_ifs
    · exact ⟨rfl, rfl⟩
    · exact ⟨rfl, hinit⟩
    · exact ⟨rfl, hinit⟩
  unfold gpioSetReuseStatus gpioSetReuseByPinfunc
  simp only
  split_ifs
  · exact ⟨rfl, hinit⟩
  · exact ⟨rfl, hinit⟩
  · exact ⟨rfl, hinit⟩
  · split
    · exact ⟨rfl, hinit⟩
    · exact hwrite _

theorem gpioSetReuse_ret (d : Device) (info : GpioInfo) :
    (gpioSetReuse d info).1 =
      ((named info).getLast?.map fun i => (gpioSetReuseStatus d i.1 i.2).1).getD 0 := by
  have hloop : ∀ (l : List (ℕ × ℕ)) (s : ℤ × Device), s.2.ioInit = d.ioInit →
      (l.foldl (fun s i => gpioSetReuseStatus s.2 i.1 i.2) s).1 =
        l.foldl (fun _ i => (gpioSetReuseStatus d i.1 i.2).1) s.1 := by
    intro l
    induction l with
    | nil => exact fun _ _ => rfl
    | cons i l ih =>
      intro s hs
      obtain ⟨hret, hinit⟩ := gpioSetReuseStatus_frame hs i.1 i.2
      rw [List.foldl_cons, List.foldl_cons, ih _ hinit, hret]
  unfold gpioSetReuse
  rw [forPins_eq (fun group pin (s : ℤ × Device) => gpioSetReuseStatus s.2 group pin),
    hloop _ _ rfl, foldl_last]

end PinMux

/-! ## Register loops -/

section Registers

variable {r : Regs}

theorem pinBit_gpioSetRegBitVal (group reg bitval : ℕ) {pin reg' : ℕ} {i : ℕ × ℕ}
    (hpin : pin < gpioGroupMaxPinNum) :
    pinBit (gpioSetRegBitVal r group reg (1#32 <<< pin) bitval) reg' i =
      if i = (group, pin) ∧ reg' = reg then decide (bitval ≠ 0) else pinBit r reg' i := by
  unfold pinBit
  by_cases hi : i.2 < 32
  · rw [gpioSetRegBitVal_getLsbD _ _ _ _ hi]
    congr 1
    rw [eq_iff_iff, Prod.ext_iff]
    tauto
  · have hne : i ≠ (group, pin) := by
      rintro rfl
      exact hi hpin
    simp only [hne, false_and, if_false]
    rw [BitVec.getLsbD_of_ge _ _ (Nat.not_lt.mp hi), BitVec.getLsbD_of_ge _ _ (Nat.not_lt.mp hi)]

theorem gpioGetRegBitVal_bit (group reg : ℕ) {pin : ℕ} (hpin : pin < gpioGroupMaxPinNum) :
    gpioGetRegBitVal r group reg (1#32 <<< pin) = if pinBit r reg (group, pin) then 1 else 0 := by
  have hsize : gpioGroupMaxPinNum = 32 := rfl
  have hdiv : (group * gpioGroupMaxPinNum + pin) / gpioGroupMaxPinNum = group := by
    rw [hsize] at hpin ⊢
    omega
  have hmod : (group * gpioGroupMaxPinNum + pin) % gpioGroupMaxPinNum = pin := by
    rw [hsize] at hpin ⊢
    omega
  have hbit := gpioGetRegBitVal_eq r reg (group * gpioGroupMaxPinNum + pin)
  unfold bitOf at hbit
  rw [hdiv, hmod] at hbit
  exact hbit

def levelPin (value : Bool) (reg : ℕ) (bits : ℕ → Bool) : Bool :=
  if reg = regGpioOutput then value else if reg = regGpioInten then false else bits reg

def dirPin (dir : Bool) (reg : ℕ) (bits : ℕ → Bool) : Bool :=
  if reg = regGpioDir then dir
  else if dir = true ∧ bits regGpioDir = false then levelPin (bits regGpioInput) reg bits
  else bits reg

theorem regs_ne : regGpioOutput ≠ regGpioDir ∧ regGpioOutput ≠ regGpioInten ∧
    regGpioDir ≠ regGpioInten ∧ regGpioInput ≠ regGpioDir ∧ regGpioInput ≠ regGpioInten := by
  decide

theorem toNat_level (b : Bool) : ((if b = true then 1 else 0 : BitVec 32) &&& 1).toNat =
    if b = true then 1 else 0 := by
  cases b with
  | false => rfl
  | true => rfl

theorem decide_level (b : Bool) : decide ((if b = true then 1 else 0 : ℕ) ≠ 0) = b := by
  cases b with
  | false => rfl
  | true => rfl

theorem pinBit_gpioSaveLevel {group pin reg : ℕ} {i : ℕ × ℕ} (hpin : pin < gpioGroupMaxPinNum) :
    pinBit (gpioSaveLevel r group pin) reg i =
      if i = (group, pin) then
        (if reg = regGpioDir then false
          else levelPin (pinBit r regGpioInput i) reg fun reg => pinBit r reg i)
      else pinBit r reg i := by
  obtain ⟨houtDir, houtInten, hdirInten, hinDir, hinInten⟩ := regs_ne
  unfold gpioSaveLevel levelPin
  simp only [gpioGetRegBitVal_bit _ _ hpin, toNat_level, pinBit_gpioSetRegBitVal _ _ _ hpin,
    decide_level, hinDir, hinInten, and_false, if_false]
  by_cases hi : i = (group, pin)
  · subst hi
    simp only [true_and, if_true]
    by_cases hout : reg = regGpioOutput
    · subst hout
      simp [houtDir]
    · by_cases hdir : reg = regGpioDir
      · subst hdir
        simp [hout, hdirInten, gpioDirInput]
      · by_cases hinten : reg = regGpioInten
        · subst hinten
          simp [hout, hdir]
        · simp [hout, hdir, hinten]
  · simp [hi]

theorem pinBit_gpioSetDir {group pin reg : ℕ} {i : ℕ × ℕ} (dir : Bool)
    (hpin : pin < gpioGroupMaxPinNum) :
    pinBit (gpioSetDir r group pin (if dir = true then 1 else 0)) reg i =
      if i = (group, pin) then dirPin dir reg (fun reg => pinBit r reg i) else pinBit r reg i := by
  unfold gpioSetDir dirPin
  simp only [gpioGetRegBitVal_bit _ _ hpin]
  cases dir with
  | false =>
    have hzero : ¬ (if false = true then 1 else 0 : BitVec 32).toNat = gpioDirOutput := by decide
    simp only [hzero, false_and, if_false, pinBit_gpioSetRegBitVal _ _ _ hpin]
    by_cases hi : i = (group, pin)
    · subst hi
      simp
    · simp [hi]
  | true =>
    have hsave : (if (if true = true then 1 else 0 : BitVec 32).toNat = gpioDirOutput ∧
        (if pinBit r regGpioDir (group, pin) = true then 1 else 0 : BitVec 32) ≠
          (if true = true then 1 else 0) then gpioSaveLevel r group pin else r) =
        if pinBit r regGpioDir (group, pin) = true then r else gpioSaveLevel r group pin := by
      cases pinBit r regGpioDir (group, pin) with
      | false => rfl
      | true => rfl
    rw [hsave, pinBit_gpioSetRegBitVal _ _ _ hpin]
    by_cases hi : i = (group, pin)
    · subst hi
      by_cases hreg : reg = regGpioDir
      · subst hreg
        simp only [and_self, if_true]
        rfl
      · by_cases hdir : pinBit r regGpioDir (group, pin) = true
        · simp [hreg, hdir]
        · simp [hreg, hdir, pinBit_gpioSaveLevel hpin]
    · simp only [hi, false_and, if_false]
      split
      · rfl
      · rw [pinBit_gpioSaveLevel hpin, if_neg hi]

theorem gpioSetLevel_spec (d : Device) (info : GpioInfo) :
    (gpioSetLevel d info).1 ≠ 0 ∧ (gpioSetLevel d info).2 = d ∨
      (gpioSetLevel d info).1 = 0 ∧ ∀ i reg, pinBit (gpioSetLevel d info).2.regs reg i =
        if i ∈ named info then
          levelPin ((info.gpioValue i.1).getLsbD i.2) reg fun reg => pinBit d.regs reg i
        else pinBit d.regs reg i := by
  unfold gpioSetLevel
  by_cases hreused : gpioIsReused d info = 0
  · by_cases hdir : gpioCheckDirection d info 1 = 0
    · right
      simp only [hreused, hdir, ne_eq, not_true_eq_false, if_false, true_and]
      intro i reg
      rw [forPins_eq]
      have hplaces := foldl_places (fun (r : Regs) (i : ℕ × ℕ) reg => pinBit r reg i)
        (fun i (regs : Regs) =>
          gpioSetRegBitVal (gpioSetRegBitVal regs i.1 regGpioInten (1#32 <<< i.2) 0) i.1
            regGpioOutput (1#32 <<< i.2) (info.gpioValue i.1 >>> i.2 &&& 1).toNat)
        (fun i bits reg => levelPin ((info.gpioValue i.1).getLsbD i.2) reg bits)
        (nodup_named info)
        (fun i hi r j => by
          have hpin := (mem_named.mp hi).1.2
          have hvalue : decide ((info.gpioValue i.1 >>> i.2 &&& 1).toNat ≠ 0) =
              (info.gpioValue i.1).getLsbD i.2 := by
            rw [and_one_eq]
            cases (info.gpioValue i.1).getLsbD i.2 with
            | false => rfl
            | true => rfl
          funext reg
          simp only [pinBit_gpioSetRegBitVal _ _ _ hpin, hvalue, levelPin]
          by_cases hj : j = i
          · subst hj
            simp
          · simp [hj]) d.regs i
      refine (congrFun hplaces reg).trans ?_
      split
      · rfl
      · rfl
    · left
      simp only [hreused, hdir, ne_eq, not_true_eq_false, if_false, not_false_eq_true, if_true,
        and_self]
  · left
    simp [hreused]

theorem gpioCmdSetDir_spec (d : Device) (info : GpioInfo) :
    (gpioCmdSetDir d info).1 ≠ 0 ∧ (gpioCmdSetDir d info).2 = d ∨
      (gpioCmdSetDir d info).1 = 0 ∧ ∀ i reg, pinBit (gpioCmdSetDir d info).2.regs reg i =
        if i ∈ named info then
          dirPin ((info.gpioValue i.1).getLsbD i.2) reg fun reg => pinBit d.regs reg i
        else pinBit d.regs reg i := by
  unfold gpioCmdSetDir
  by_cases hreused : gpioIsReused d info = 0
  · right
    simp only [hreused, ne_eq, not_true_eq_false, if_false, true_and]
    intro i reg
    rw [forPins_eq]
    have hplaces := foldl_places (fun (r : Regs) (i : ℕ × ℕ) reg => pinBit r reg i)
      (fun i (regs : Regs) => gpioSetDir regs i.1 i.2 (info.gpioValue i.1 >>> i.2 &&& 1))
      (fun i bits reg => dirPin ((info.gpioValue i.1).getLsbD i.2) reg bits)
      (nodup_named info)
      (fun i hi r j => by
        have hpin := (mem_named.mp hi).1.2
        funext reg
        rw [and_one_eq, pinBit_gpioSetDir _ hpin]
        by_cases hj : j = i
        · subst hj
          simp
        · simp [hj]) d.regs i
    refine (congrFun hplaces reg).trans ?_
    split
    · rfl
    · rfl
  · left
    simp [hreused]

end Registers

/-! ## Loops that read -/

section Values

variable {info : GpioInfo}

theorem forPins_orValue (value : ℕ × ℕ → BitVec 32) (i : ℕ × ℕ) :
    (forPins info (fun group pin values => orValue values group pin (value (group, pin)))
        (fun _ => 0) i.1).getLsbD i.2 = true ↔
      ∃ j ∈ named info, j.1 = i.1 ∧ (value j <<< j.2).getLsbD i.2 = true := by
  have hloop := getLsbD_foldl_or (named info) Prod.fst (fun j => value j <<< j.2)
    (fun _ => (0 : BitVec 32)) i.1 i.2
  have hzero : (0 : BitVec 32).getLsbD i.2 = false := BitVec.getLsbD_zero
  rw [hzero] at hloop
  simp only [Bool.false_eq_true, false_or] at hloop
  rw [forPins_eq]
  exact hloop

theorem getLsbD_one_shift {n b : ℕ} (hb : b < 32) :
    ((1 : BitVec 32) <<< n).getLsbD b = decide (b = n) := by
  have hone : (1 : BitVec 32) = 1#32 := rfl
  rw [hone, BitVec.getLsbD_shiftLeft, BitVec.getLsbD_one]
  rw [Bool.eq_iff_iff]
  simp
  omega

theorem getLsbD_ones_shift {n b : ℕ} (hb : b < 32) :
    (BitVec.allOnes 32 <<< n).getLsbD b = decide (n ≤ b) := by
  rw [BitVec.getLsbD_shiftLeft, BitVec.getLsbD_allOnes, Bool.eq_iff_iff]
  simp
  omega

theorem forPins_read (r : Regs) (reg : ℕ) {i : ℕ × ℕ}
    (hi : i ∈ grid gpioMaxGroupNum gpioGroupMaxPinNum) :
    (forPins info (fun group pin values =>
        orValue values group pin (gpioGetRegBitVal r group reg (1#32 <<< pin)))
      (fun _ => 0) i.1).getLsbD i.2 = (pinMasked info i.1 i.2 && pinBit r reg i) := by
  have hmem := mem_grid.mp hi
  have hi32 : i.2 < 32 := hmem.2
  rw [Bool.eq_iff_iff,
    forPins_orValue (fun j => gpioGetRegBitVal r j.1 reg (1#32 <<< j.2)), Bool.and_eq_true]
  constructor
  · rintro ⟨j, hj, hgroup, hbit⟩
    obtain ⟨⟨_, hpin⟩, hmasked⟩ := mem_named.mp hj
    rw [gpioGetRegBitVal_bit _ _ hpin] at hbit
    by_cases hset : pinBit r reg (j.1, j.2) = true
    · rw [if_pos hset, getLsbD_one_shift hi32, decide_eq_true_eq] at hbit
      obtain rfl : j = i := Prod.ext hgroup hbit.symm
      exact ⟨hmasked, hset⟩
    · rw [if_neg hset] at hbit
      simp at hbit
  · rintro ⟨hmasked, hset⟩
    refine ⟨i, mem_named.mpr ⟨hmem, hmasked⟩, rfl, ?_⟩
    have hset' : pinBit r reg (i.1, i.2) = true := hset
    rw [gpioGetRegBitVal_bit _ _ hmem.2, if_pos hset', getLsbD_one_shift hi32]
    simp

theorem gpioGetReuse_bit (d : Device) (hcheck : gpioCheckPin info = 0) {i : ℕ × ℕ}
    (hi : i.2 < 32) :
    ((gpioGetReuse d info).gpioValue i.1).getLsbD i.2 = true ↔
      ∃ j ∈ named info, j.1 = i.1 ∧
        (gpioGetReuseStatus d j.1 j.2 = 1 ∧ j.2 = i.2 ∨ Unmapped d j ∧ j.2 ≤ i.2) := by
  have hloop := @forPins_orValue info
    (fun j => BitVec.ofInt 32 (gpioGetReuseStatus d j.1 j.2)) i
  refine hloop.trans ?_
  have hbit : ∀ j ∈ named info,
      (BitVec.ofInt 32 (gpioGetReuseStatus d j.1 j.2) <<< j.2).getLsbD i.2 = true ↔
        (gpioGetReuseStatus d j.1 j.2 = 1 ∧ j.2 = i.2 ∨ Unmapped d j ∧ j.2 ≤ i.2) := by
    intro j hj
    obtain ⟨hunmapped, hmapped⟩ := @status_named d info hcheck j hj
    by_cases h : Unmapped d j
    · have hones : BitVec.ofInt 32 (-1) = BitVec.allOnes 32 := by decide
      rw [(hunmapped h).1, hones, getLsbD_ones_shift hi]
      simp [h]
    · rcases (hmapped h).1 with hstatus | hstatus
      · rw [hstatus]
        simp [h]
      · have hone : BitVec.ofInt 32 1 = 1 := by decide
        rw [hstatus, hone, getLsbD_one_shift hi]
        simp [h, eq_comm]
  constructor
  · rintro ⟨j, hj, hgroup, h⟩
    exact ⟨j, hj, hgroup, (hbit j hj).mp h⟩
  · rintro ⟨j, hj, hgroup, h⟩
    exact ⟨j, hj, hgroup, (hbit j hj).mpr h⟩

theorem gpioGetReuse_alone_iff (d : Device) (hcheck : gpioCheckPin info = 0) :
    (∀ i ∈ grid gpioMaxGroupNum gpioGroupMaxPinNum,
      ((gpioGetReuse d info).gpioValue i.1).getLsbD i.2 =
        (pinMasked info i.1 i.2 && decide (gpioGetReuseStatus d i.1 i.2 ≠ 0))) ↔
      ∀ i ∈ named info, Unmapped d i →
        ∀ pin, i.2 < pin → pin < gpioGroupMaxPinNum → (i.1, pin) ∈ named info := by
  constructor
  · intro h j hj hunmapped pin hlt hpin
    have hgroup := (mem_named.mp hj).1.1
    have hbit : ((gpioGetReuse d info).gpioValue j.1).getLsbD pin = true :=
      (@gpioGetReuse_bit info d hcheck (j.1, pin) hpin).mpr
        ⟨j, hj, rfl, Or.inr ⟨hunmapped, hlt.le⟩⟩
    have halone := h (j.1, pin) (mem_grid.mpr ⟨hgroup, hpin⟩)
    rw [hbit] at halone
    have hmasked := (Bool.and_eq_true_iff.mp halone.symm).1
    exact mem_named.mpr ⟨⟨hgroup, hpin⟩, hmasked⟩
  · intro h i hi
    have hmem := mem_grid.mp hi
    rw [Bool.eq_iff_iff, gpioGetReuse_bit d hcheck hmem.2, Bool.and_eq_true, decide_eq_true_eq]
    constructor
    · rintro ⟨j, hj, hgroup, ⟨hstatus, hpin⟩ | ⟨hunmapped, hle⟩⟩
      · obtain rfl : j = i := Prod.ext hgroup hpin
        refine ⟨(mem_named.mp hj).2, ?_⟩
        rw [hstatus]
        exact one_ne_zero
      · have hnamed : i ∈ named info := by
          rcases hle.lt_or_eq with hlt | heq
          · have hin := h j hj hunmapped i.2 hlt hmem.2
            rwa [hgroup] at hin
          · obtain rfl : j = i := Prod.ext hgroup heq
            exact hj
        have hunmapped' : Unmapped d i := by
          unfold Unmapped at hunmapped ⊢
          rwa [← hgroup]
        refine ⟨(mem_named.mp hnamed).2, ?_⟩
        rw [((@status_named d info hcheck i hnamed).1 hunmapped').1]
        decide
    · rintro ⟨hmasked, hstatus⟩
      have hnamed : i ∈ named info := mem_named.mpr ⟨hmem, hmasked⟩
      refine ⟨i, hnamed, rfl, ?_⟩
      by_cases hunmapped : Unmapped d i
      · exact Or.inr ⟨hunmapped, le_rfl⟩
      · rcases ((@status_named d info hcheck i hnamed).2 hunmapped).1 with hzero | hone
        · exact absurd hzero hstatus
        · exact Or.inl ⟨hone, rfl⟩

end Values

/-! ## The commands on a request -/

section Commands

variable {d : Device} {req : Request}

theorem gpioInfoCopyAndCheck_fails (h : req.copyFrom = false) :
    gpioInfoCopyAndCheck req = -efault := by
  unfold gpioInfoCopyAndCheck
  rw [h]
  rfl

theorem gpioInfoCopyAndCheck_passes (hcheck : gpioCheckPin req.info = 0)
    (h : req.copyFrom = true) : gpioInfoCopyAndCheck req = 0 := by
  unfold gpioInfoCopyAndCheck
  rw [h, hcheck]
  rfl

theorem gpioIoctl_refused (cmd : Cmd) (h : req.copyFrom = false) :
    gpioIoctl d cmd req = ⟨-efault, d, none⟩ := by
  have hfault : -efault ≠ 0 := by decide
  cases cmd <;>
    simp only [gpioIoctl, gpioCmdReuse, gpioCmdDirection, gpioCmdLevel,
      gpioInfoCopyAndCheck_fails h, if_pos hfault]

theorem setsPins_of_spec {info : GpioInfo} {reg : ℕ} {r : ℤ × Device}
    {pin : Bool → ℕ → (ℕ → Bool) → Bool} (hpin : ∀ value bits, pin value reg bits = value)
    (hspec : r.1 ≠ 0 ∧ r.2 = d ∨ r.1 = 0 ∧ ∀ i reg, pinBit r.2.regs reg i =
      if i ∈ named info then
        pin ((info.gpioValue i.1).getLsbD i.2) reg fun reg => pinBit d.regs reg i
      else pinBit d.regs reg i) :
    SetsPins d info reg ⟨r.1, r.2, none⟩ := by
  rcases hspec with ⟨hret, hdevice⟩ | ⟨hret, hbits⟩
  · exact Or.inl ⟨hret, congrArg Device.regs hdevice⟩
  · right
    constructor
    · exact hret
    · constructor
      · intro i hi
        rw [hbits, if_pos hi, hpin]
      · intro i hi reg'
        rw [hbits, if_neg hi]

theorem setLevel_correct (hcheck : gpioCheckPin req.info = 0) :
    SetsPins d req.info regGpioOutput (gpioIoctl d .setLevel req) := by
  cases hfrom : req.copyFrom with
  | false =>
    rw [gpioIoctl_refused _ hfrom]
    have hfault : -efault ≠ 0 := by decide
    exact Or.inl ⟨hfault, rfl⟩
  | true =>
    have hpasses := gpioInfoCopyAndCheck_passes hcheck hfrom
    simp only [gpioIoctl, gpioCmdLevel, hpasses, ne_eq, not_true_eq_false, if_false]
    exact setsPins_of_spec (fun value bits => if_pos rfl) (gpioSetLevel_spec d req.info)

theorem setDir_correct (hcheck : gpioCheckPin req.info = 0) :
    SetsPins d req.info regGpioDir (gpioIoctl d .setDir req) ∧
      ((gpioIoctl d .setDir req).ret = 0 → ∀ i ∈ named req.info,
        pinBit d.regs regGpioDir i = false → (req.info.gpioValue i.1).getLsbD i.2 = true →
          pinBit (gpioIoctl d .setDir req).device.regs regGpioOutput i =
            pinBit d.regs regGpioInput i) := by
  cases hfrom : req.copyFrom with
  | false =>
    rw [gpioIoctl_refused _ hfrom]
    have hfault : -efault ≠ 0 := by decide
    exact ⟨Or.inl ⟨hfault, rfl⟩, fun h => absurd h hfault⟩
  | true =>
    have hpasses := gpioInfoCopyAndCheck_passes hcheck hfrom
    have hspec := gpioCmdSetDir_spec d req.info
    simp only [gpioIoctl, gpioCmdDirection, hpasses, ne_eq, not_true_eq_false, if_false]
    constructor
    · exact setsPins_of_spec (fun value bits => if_pos rfl) hspec
    · intro hret i hi hdir hvalue
      rcases hspec with ⟨hne, _⟩ | ⟨_, hbits⟩
      · exact absurd hret hne
      · rw [hbits, if_pos hi, hvalue]
        unfold dirPin levelPin
        rw [if_neg regs_ne.1, if_pos ⟨rfl, hdir⟩, if_pos rfl]

theorem answers_copyToUser {info : GpioInfo} {f : ℕ × ℕ → Bool} {out : GpioInfo}
    (hout : ∀ i ∈ grid gpioMaxGroupNum gpioGroupMaxPinNum,
      (out.gpioValue i.1).getLsbD i.2 = (pinMasked info i.1 i.2 && f i)) :
    Answers d info f (copyToUser req d out) := by
  unfold copyToUser
  split
  · constructor
    · rfl
    · intro out' h
      cases h
      exact hout
  · constructor
    · rfl
    · intro out' h
      cases h

theorem answers_none {info : GpioInfo} {f : ℕ × ℕ → Bool} (ret : ℤ) :
    Answers d info f ⟨ret, d, none⟩ := by
  constructor
  · rfl
  · intro out h
    cases h

theorem getDir_correct (hcheck : gpioCheckPin req.info = 0) :
    Answers d req.info (pinBit d.regs regGpioDir) (gpioIoctl d .getDir req) := by
  cases hfrom : req.copyFrom with
  | false =>
    rw [gpioIoctl_refused _ hfrom]
    exact answers_none _
  | true =>
    have hpasses := gpioInfoCopyAndCheck_passes hcheck hfrom
    simp only [gpioIoctl, gpioCmdDirection, hpasses, gpioGetDir, ne_eq, not_true_eq_false,
      if_false]
    by_cases hreused : gpioIsReused d req.info = 0
    · simp only [hreused, not_true_eq_false, if_false]
      exact answers_copyToUser fun i hi => forPins_read d.regs regGpioDir hi
    · have hnodev : ¬ -enodev = 0 := by decide
      simp only [hreused, hnodev, not_false_eq_true, if_true]
      exact answers_none _

theorem outputGetLevel_correct (hcheck : gpioCheckPin req.info = 0) :
    Answers d req.info (pinBit d.regs regGpioInput) (gpioIoctl d .outputGetLevel req) := by
  cases hfrom : req.copyFrom with
  | false =>
    rw [gpioIoctl_refused _ hfrom]
    exact answers_none _
  | true =>
    have hpasses := gpioInfoCopyAndCheck_passes hcheck hfrom
    simp only [gpioIoctl, gpioCmdLevel, hpasses, gpioGetOutputLevel, ne_eq, not_true_eq_false,
      if_false]
    by_cases hreused : gpioIsReused d req.info = 0
    · simp only [hreused, not_true_eq_false, if_false]
      exact answers_copyToUser fun i hi => forPins_read d.regs regGpioInput hi
    · have hnodev : ¬ -enodev = 0 := by decide
      simp only [hreused, hnodev, not_false_eq_true, if_true]
      exact answers_none _

theorem getReuse_correct_iff (hcheck : gpioCheckPin req.info = 0) :
    Answers d req.info (fun i => gpioGetReuseStatus d i.1 i.2 ≠ 0) (gpioIoctl d .getReuse req) ↔
      (req.copyFrom = true → req.copyTo = true → ∀ i ∈ named req.info, Unmapped d i →
        ∀ pin, i.2 < pin → pin < gpioGroupMaxPinNum → (i.1, pin) ∈ named req.info) := by
  cases hfrom : req.copyFrom with
  | false =>
    rw [gpioIoctl_refused _ hfrom]
    simp only [Bool.false_eq_true, false_implies, iff_true]
    exact answers_none _
  | true =>
    have hpasses := gpioInfoCopyAndCheck_passes hcheck hfrom
    rw [← gpioGetReuse_alone_iff d hcheck]
    simp only [gpioIoctl, gpioCmdReuse, hpasses, ne_eq, not_true_eq_false, if_false, true_implies]
    constructor
    · intro h hto
      have hout : (copyToUser req d (gpioGetReuse d req.info)).out =
          some (gpioGetReuse d req.info) := by
        unfold copyToUser
        rw [if_pos hto]
      exact h.2 _ hout
    · intro h
      cases hto : req.copyTo with
      | false =>
        unfold copyToUser
        rw [hto]
        exact answers_none _
      | true => exact answers_copyToUser (h hto)

theorem setReuse_correct_iff (hcheck : gpioCheckPin req.info = 0) :
    ((gpioIoctl d .setReuse req).ret = 0 →
      ∀ i ∈ named req.info, (gpioSetReuseStatus d i.1 i.2).1 = 0) ↔
      (req.copyFrom = true → ∀ i ∈ named req.info, Unmapped d i →
        ∃ last, (named req.info).getLast? = some last ∧ Unmapped d last) := by
  cases hfrom : req.copyFrom with
  | false =>
    have hfault : ¬ -efault = 0 := by decide
    rw [gpioIoctl_refused _ hfrom]
    simp [hfault]
  | true =>
    have hpasses := gpioInfoCopyAndCheck_passes hcheck hfrom
    have hwritten : ∀ i ∈ named req.info,
        ((gpioSetReuseStatus d i.1 i.2).1 = 0 ↔ ¬ Unmapped d i) := by
      intro i hi
      obtain ⟨hunmapped, hmapped⟩ := @status_named d req.info hcheck i hi
      constructor
      · exact fun hzero h => (hunmapped h).2 hzero
      · exact fun h => (hmapped h).2
    simp only [gpioIoctl, gpioCmdReuse, hpasses, ne_eq, not_true_eq_false, if_false, true_implies]
    rw [gpioSetReuse_ret]
    cases hlast : (named req.info).getLast? with
    | none =>
      have hnil := List.getLast?_eq_none_iff.mp hlast
      simp [hnil]
    | some last =>
      have hmem := List.mem_of_getLast? hlast
      simp only [Option.map_some, Option.getD_some, hwritten last hmem, Option.some.injEq,
        exists_eq_left']
      constructor
      · intro h i hi hunmapped
        by_contra hnot
        exact (hwritten i hi).mp (h hnot i hi) hunmapped
      · intro h hnot i hi
        exact (hwritten i hi).mpr fun hunmapped => hnot (h i hi hunmapped)

/-- Only the two commands for the pin-mux can go wrong, and only over pins whose pin-mux
registers are not mapped. -/
theorem ioctl_correct_iff (d : Device) (req : Request) (hcheck : gpioCheckPin req.info = 0) :
    IoctlCorrect d req ↔ ReuseAllowed d req := by
  constructor
  · intro h
    constructor
    · exact (getReuse_correct_iff hcheck).mp h.getReuse
    · exact (setReuse_correct_iff hcheck).mp h.setReuse
  · intro h
    constructor
    · exact setLevel_correct hcheck
    · exact (setDir_correct hcheck).1
    · exact (setDir_correct hcheck).2
    · exact getDir_correct hcheck
    · exact outputGetLevel_correct hcheck
    · exact (getReuse_correct_iff hcheck).mpr h.getReuse
    · exact (setReuse_correct_iff hcheck).mpr h.setReuse

theorem ioctl_correct_pin0 :
    let info : GpioInfo := ⟨fun _ => 0, fun group => if group = 0 then 1 else 0⟩
    gpioCheckPin info = 0 ∧
      IoctlCorrect ⟨fun _ _ => 0, fun _ => true, fun _ _ => 2⟩ ⟨info, true, true⟩ := by
  intro info
  have hcheck : gpioCheckPin info = 0 := by decide +kernel
  refine ⟨hcheck, (ioctl_correct_iff _ ⟨info, true, true⟩ hcheck).mpr ?_⟩
  constructor
  · intro _ _ i _ hunmapped
    cases hunmapped.2
  · intro _ i _ hunmapped
    cases hunmapped.2

/-- Pins 0 and 158, with no pin-mux register mapped: the write of pin 0 fails and the command
returns success, and reading pin 0 sets the bits of all the pins of its group. -/
theorem ioctl_unmapped :
    let info : GpioInfo :=
      ⟨fun _ => 0, fun group => if group = 0 then 1 else if group = 4 then 0x40000000 else 0⟩
    let d : Device := ⟨fun _ _ => 0, fun _ => false, fun _ _ => 0⟩
    gpioCheckPin info = 0 ∧
      (gpioIoctl d .setReuse ⟨info, true, true⟩).ret = 0 ∧
      (gpioSetReuseStatus d 0 0).1 = -enodev ∧
      (gpioGetReuse d info).gpioValue 0 = 0xFFFFFFFF ∧
      ¬ IoctlCorrect d ⟨info, true, true⟩ := by
  intro info d
  have hret : (gpioIoctl d .setReuse ⟨info, true, true⟩).ret = 0 := by decide +kernel
  have hfails : (gpioSetReuseStatus d 0 0).1 = -enodev := by decide +kernel
  refine ⟨by decide +kernel, hret, hfails, by decide +kernel, ?_⟩
  intro h
  have hmem : ((0, 0) : ℕ × ℕ) ∈ named info := by decide +kernel
  have hzero := h.setReuse hret (0, 0) hmem
  rw [hfails] at hzero
  cases hzero

end Commands

end HiMpu.GpioIoctl
