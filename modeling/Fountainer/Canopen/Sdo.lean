import Fountainer.Canopen.ObjectDict

/-!
# The SDO server

Part 5 of `co_core.c`: expedited and segmented upload and download, one transfer at a
time, with one buffer for both directions.
-/

namespace Fountainer.Canopen

open Bytes (leU16 leU32)

variable {σ : Type*} (A : App σ)

/-- The node with the SDO server replaced. -/
def CoNode.setSdo (n : CoNode) (sdo : CoSdo) : CoNode := { n with sdo }

/-- `sdo_reply`. -/
def sdoReply (w : World σ) (d : List UInt8) : World σ :=
  (tx A w .sdo (0x580 + w.node.cfg.nodeId.toUInt16) d).2

/-- The server back in the idle state. -/
def sdoIdle (w : World σ) : World σ :=
  { w with node := w.node.setSdo { w.node.sdo with state := .idle } }

/-- `sdo_abort`. -/
def sdoAbort (w : World σ) (index : UInt16) (sub : UInt8) (code : UInt32) : World σ :=
  sdoIdle (sdoReply A w ([0x80] ++ leU16 index ++ [sub] ++ leU32 code))

/-- The head of an initiate reply: command, index, sub-index. -/
def replyHead (cmd : UInt8) (index : UInt16) (sub : UInt8) : List UInt8 :=
  [cmd] ++ leU16 index ++ [sub]

/-- `sdo_upload_initiate`. -/
def sdoUploadInitiate (w : World σ) (index : UInt16) (sub : UInt8) : World σ :=
  let r := odRead A w index sub coSdoBufSize
  let len := r.1.bytes.length
  -- The callee stores the object in the buffer of the server.
  let sdo := { r.2.node.sdo with buf := Bytes.write r.2.node.sdo.buf 0 r.1.bytes }
  let w := { r.2 with node := r.2.node.setSdo sdo }.emit (.copy .sdo 0 len)
  if r.1.code ≠ 0 then sdoAbort A w index sub r.1.code
  else if len ≤ 4 then
    let cmd := UInt8.ofNat (0x43 ||| (4 - len) <<< 2)
    let d := replyHead cmd index sub ++ (Bytes.read sdo.buf 0 len ++ List.replicate (4 - len) 0)
    sdoReply A (sdoIdle ((w.emit (.copy .sdo 0 len)).emit (.copy .frame 4 len))) d
  else
    let sdo := { sdo with
      state := .uploadSeg, index, sub, len, pos := 0, toggle := 0, lastMs := w.node.nowMs }
    sdoReply A { w with node := w.node.setSdo sdo }
      (replyHead 0x41 index sub ++ leU32 (UInt32.ofNat len))

/-- The toggle bit of a segment request. -/
def cmdToggle (cmd : UInt8) : UInt8 := (cmd >>> 4) &&& 1

/-- `sdo_upload_segment`. -/
def sdoUploadSegment (w : World σ) (cmd : UInt8) : World σ :=
  let sdo := w.node.sdo
  if sdo.state ≠ .uploadSeg then sdoAbort A w 0 0 abortCmd
  else if cmdToggle cmd ≠ sdo.toggle then sdoAbort A w sdo.index sdo.sub abortToggle
  else
    let remain := sdo.len - sdo.pos
    let n := if 7 < remain then 7 else remain
    let last := n == remain
    let bit0 := if last then 1 else 0
    let head := UInt8.ofNat ((cmdToggle cmd).toNat <<< 4 ||| (7 - n) <<< 1 ||| bit0)
    let d := [head] ++ (Bytes.read sdo.buf sdo.pos n ++ List.replicate (7 - n) 0)
    let w := (w.emit (.copy .sdo sdo.pos n)).emit (.copy .frame 1 n)
    let sdo := { sdo with
      pos := sdo.pos + n, toggle := sdo.toggle ^^^ 1, lastMs := w.node.nowMs,
      state := if last then .idle else sdo.state }
    sdoReply A { w with node := w.node.setSdo sdo } d

/-- The number of data bytes of an expedited download. -/
def expeditedLen (cmd : UInt8) : ℕ :=
  if cmd &&& 0x01 ≠ 0 then 4 - ((cmd >>> 2) &&& 3).toNat else 4

/-- `sdo_download_initiate`. -/
def sdoDownloadInitiate (w : World σ) (cmd : UInt8) (index : UInt16) (sub : UInt8)
    (payload : List UInt8) : World σ :=
  if cmd &&& 0x02 ≠ 0 then
    let len := expeditedLen cmd
    let r := odWrite A (w.emit (.copy .frame 4 len)) .sdo index sub (payload.take len)
    if r.1 ≠ 0 then sdoAbort A r.2 index sub r.1
    else sdoReply A (sdoIdle r.2) (replyHead 0x60 index sub ++ [0, 0, 0, 0])
  else
    let expected := if cmd &&& 0x01 ≠ 0 then (coGetU32 payload).toNat else 0
    if coSdoBufSize < expected then sdoAbort A w index sub abortOutOfMemory
    else
      let sdo := { w.node.sdo with
        state := .downloadSeg, index, sub, len := expected, pos := 0, toggle := 0,
        lastMs := w.node.nowMs }
      sdoReply A { w with node := w.node.setSdo sdo } (replyHead 0x60 index sub ++ [0, 0, 0, 0])

/-- The number of data bytes of a download segment. -/
def segmentLen (cmd : UInt8) : ℕ := 7 - ((cmd >>> 1) &&& 7).toNat

/-- `sdo_download_segment`. -/
def sdoDownloadSegment (w : World σ) (cmd : UInt8) (payload : List UInt8) : World σ :=
  let sdo := w.node.sdo
  if sdo.state ≠ .downloadSeg then sdoAbort A w 0 0 abortCmd
  else if cmdToggle cmd ≠ sdo.toggle then sdoAbort A w sdo.index sdo.sub abortToggle
  else
    let n := segmentLen cmd
    if coSdoBufSize < sdo.pos + n then sdoAbort A w sdo.index sdo.sub abortOutOfMemory
    else
      let w := (w.emit (.copy .frame 1 n)).emit (.copy .sdo sdo.pos n)
      let sdo := { sdo with
        buf := Bytes.write sdo.buf sdo.pos (payload.take n), pos := sdo.pos + n,
        lastMs := w.node.nowMs, toggle := sdo.toggle ^^^ 1 }
      let w := { w with node := w.node.setSdo sdo }
      let d := [(0x20 : UInt8) ||| cmdToggle cmd <<< 4] ++ List.replicate 7 0
      if cmd &&& 1 ≠ 0 then
        if sdo.len ≠ 0 ∧ sdo.pos ≠ sdo.len then sdoAbort A w sdo.index sdo.sub abortTypeMismatch
        else
          let w := w.emit (.copy .sdo 0 sdo.pos)
          let r := odWrite A w .sdo sdo.index sdo.sub (Bytes.read sdo.buf 0 sdo.pos)
          let w := sdoIdle r.2
          if r.1 ≠ 0 then sdoAbort A w sdo.index sdo.sub r.1 else sdoReply A w d
      else sdoReply A w d

/-- The parts of an SDO request: command, index, sub-index, data behind the command. -/
structure SdoRequest where
  cmd : UInt8
  index : UInt16
  sub : UInt8
  data : List UInt8

/-- The request in a frame. -/
def CoFrame.request (f : CoFrame) : SdoRequest where
  cmd := f.cmd
  index := coGetU16 (f.data.toList.drop 1)
  sub := f.data[3]
  data := f.data.toList.drop 1

/-- The client command specifier. -/
def SdoRequest.ccs (q : SdoRequest) : ℕ := q.cmd.toNat / 32

/-- The switch of `sdo_rx` on the command specifier. -/
def sdoServe (w : World σ) (q : SdoRequest) : World σ :=
  match q.ccs with
  | 0 => sdoDownloadSegment A w q.cmd q.data
  | 1 => sdoDownloadInitiate A w q.cmd q.index q.sub (q.data.drop 3)
  | 2 => sdoUploadInitiate A w q.index q.sub
  | 3 => sdoUploadSegment A w q.cmd
  | 4 => sdoIdle w
  | _ => sdoAbort A w q.index q.sub abortCmd

/-- `sdo_rx`. -/
def sdoRx (w : World σ) (f : CoFrame) : World σ :=
  if f.dlc < 8 ∨ f.rtr then w else sdoServe A w f.request

end Fountainer.Canopen
