import Fountainer.Lib.Bytes
import Mathlib.Data.List.Nodup
import Mathlib.Data.List.Pairwise

/-!
# The catalogue of data points

`dpList` is the list of `dp_list.def`, one row a point. From such a list the source
generates the storage image, one field a point, and the descriptor table with the
offset of each field; `layout` computes the offsets the way the C compiler lays out
a struct. The functions on the table are generated code and take the rows.
-/

namespace Fountainer.Datapoints

/-- `dp_type_t`. -/
inductive DpType where
  | bool
  | u8
  | u16
  | u32
  | u64
  | i8
  | i16
  | i32
  | f32
  | enum
  | str
  deriving DecidableEq, Repr

/-- `dp_access_t`. -/
inductive DpAccess where
  | ro
  | rw
  | wo
  deriving DecidableEq, Repr

/-- `dp_persist_t`. -/
inductive DpPersist where
  | volatile
  | nvs
  | static
  deriving DecidableEq, Repr

/-- `DP_STR_MAX`. -/
abbrev dpStrMax : ℕ := 64

/-- `dp_type_size`. -/
def DpType.size : DpType → ℕ
  | .bool | .u8 | .i8 | .enum => 1
  | .u16 | .i16 => 2
  | .u32 | .i32 | .f32 => 4
  | .u64 => 8
  | .str => dpStrMax

/-- The alignment of the field in the image. -/
def DpType.align : DpType → ℕ
  | .bool | .u8 | .i8 | .enum | .str => 1
  | .u16 | .i16 => 2
  | .u32 | .i32 | .f32 => 4
  | .u64 => 8

/-- A constant of the default column. -/
inductive DpConst where
  | int (n : ℤ)
  | flt (x : Float32)
  deriving DecidableEq

/-- A row of the list. A bound `none` is the `NAN` of the source: unbounded. -/
structure DpPoint where
  name : String
  type : DpType
  access : DpAccess
  persist : DpPersist
  nvsId : ℕ
  default : DpConst
  min : Option Float32
  max : Option Float32
  deadband : Float32
  deriving DecidableEq

/-- `dp_desc_t`: a row and the offset of its slot in the image. -/
structure DpDesc extends DpPoint where
  off : ℕ
  deriving DecidableEq

/-- The size of the slot. -/
def DpDesc.size (d : DpDesc) : ℕ := d.type.size

/-- The first multiple of `align` from `off` on. -/
def alignUp (off align : ℕ) : ℕ := (off + align - 1) / align * align

/-- The descriptors of the rows, with their slots from `off` on. -/
def layout (off : ℕ) : List DpPoint → List DpDesc
  | [] => []
  | p :: ps =>
    { p with off := alignUp off p.type.align } ::
      layout (alignUp off p.type.align + p.type.size) ps

theorem le_alignUp (off align : ℕ) (h : 0 < align) : off ≤ alignUp off align := by
  unfold alignUp
  have hmod := Nat.div_add_mod (off + align - 1) align
  have hlt := Nat.mod_lt (off + align - 1) h
  rw [Nat.mul_comm] at hmod
  omega

theorem DpType.align_pos (t : DpType) : 0 < t.align := by
  cases t <;> decide

/-- No slot starts before `off`. -/
theorem layout_off_ge {off : ℕ} {ps : List DpPoint} : ∀ d ∈ layout off ps, off ≤ d.off := by
  induction ps generalizing off with
  | nil => simp [layout]
  | cons p ps ih =>
    intro d hd
    have hal := le_alignUp off p.type.align p.type.align_pos
    rcases List.mem_cons.mp hd with rfl | hd
    · exact hal
    · have := ih d hd
      omega

/-- Slots stand one behind the other. -/
theorem layout_pairwise (off : ℕ) (ps : List DpPoint) :
    (layout off ps).Pairwise (fun a b => a.off + a.size ≤ b.off) := by
  induction ps generalizing off with
  | nil => exact List.Pairwise.nil
  | cons p ps ih => exact List.Pairwise.cons (fun d hd => layout_off_ge d hd) (ih _)

/-- A row of `dp_list.def`, column by column. -/
def dp (name : String) (type : DpType) (access : DpAccess) (persist : DpPersist) (nvsId : ℕ)
    (default : DpConst) (min max : Option Float32) (deadband : Float32) : DpPoint :=
  { name, type, access, persist, nvsId, default, min, max, deadband }

/-- `dp_list.def`. -/
def dpList : List DpPoint :=
  [
    dp "Device_Serial_Number" .u64 .ro .static 0 (.int 0) none none 0.0,
    dp "Device_HW_Version" .str .ro .static 0 (.int 0) none none 0.0,
    dp "Device_SW_Version" .str .ro .static 0 (.int 0) none none 0.0,
    dp "Device_Build_Version" .u64 .ro .static 0 (.int 0) none none 0.0,
    dp "System_Temperature" .f32 .ro .volatile 0 (.int 0) none none 1.0,
    dp "System_Utilization" .u8 .ro .volatile 0 (.int 0) none none 0.0,
    dp "System_Memory_Free" .u32 .ro .volatile 0 (.int 0) none none 0.0,
    dp "System_Min_Memory_Free" .u32 .ro .volatile 0 (.int 0) none none 0.0,
    dp "System_Largest_Free_Block" .u32 .ro .volatile 0 (.int 0) none none 0.0,
    dp "System_Flash_Free" .u32 .ro .volatile 0 (.int 0) none none 0.0,
    dp "System_RSSI" .i8 .ro .volatile 0 (.int 0) none none 0.0,
    dp "System_Uptime" .u32 .ro .volatile 0 (.int 0) none none 0.0,
    dp "System_Min_Stack_Free" .u32 .ro .volatile 0 (.int 0) none none 0.0,
    dp "System_Reconnect_Count" .u32 .ro .volatile 0 (.int 0) none none 0.0,
    dp "System_Reset_Reason" .enum .ro .volatile 0 (.int 0) none none 0.0,
    dp "System_Power_Mode" .u8 .ro .volatile 0 (.int 0) none none 0.0,
    dp "System_Event_Drops" .u32 .ro .volatile 0 (.int 0) none none 0.0,
    dp "Net_Link_Score" .u8 .ro .volatile 0 (.int 100) none none 0.0,
    dp "Net_Link_State" .u8 .ro .volatile 0 (.int 0) none none 0.0,
    dp "Net_Session_Drops" .u32 .ro .volatile 0 (.int 0) none none 0.0,
    dp "Net_Send_Fail_Count" .u32 .ro .volatile 0 (.int 0) none none 0.0,
    dp "Net_Offline_Seconds" .u32 .ro .volatile 0 (.int 0) none none 0.0,
    dp "Net_Last_Offline_S" .u32 .ro .volatile 0 (.int 0) none none 0.0,
    dp "Ambient_Temperature" .f32 .ro .volatile 0 (.int 0) none none 0.2,
    dp "Ambient_Humidity" .f32 .ro .volatile 0 (.int 0) none none 1.0,
    dp "Fon_Current_Pressure" .f32 .ro .volatile 0 (.int 0) none none 0.05,
    dp "Fon_Sensor_Voltage_mV" .u32 .ro .volatile 0 (.int 0) none none 0.0,
    dp "Fon_Current_State" .enum .ro .volatile 0 (.int 0) none none 0.0,
    dp "Fon_Relay_Output" .bool .ro .volatile 0 (.int 0) none none 0.0,
    dp "Fon_Run_Time" .u32 .ro .volatile 0 (.int 0) none none 0.0,
    dp "Fon_Cycles_Total" .u32 .ro .volatile 0 (.int 0) none none 0.0,
    dp "Fon_Remaining_Time" .u32 .ro .volatile 0 (.int 0) none none 0.0,
    dp "Fon_Pressure_Filtered" .f32 .ro .volatile 0 (.int 0) none none 0.05,
    dp "Fon_Pressure_Slope" .f32 .ro .volatile 0 (.int 0) none none 0.01,
    dp "Fon_Demand_State" .enum .ro .volatile 0 (.int 0) none none 0.0,
    dp "Fon_Anomaly_Score" .u16 .ro .volatile 0 (.int 0) none none 0.0,
    dp "Fon_Event_Duration" .u32 .ro .volatile 0 (.int 0) none none 0.0,
    dp "Fon_Est_Flow_L_Min" .f32 .ro .volatile 0 (.int 0) none none 0.1,
    dp "Fon_Est_Volume_Total" .f32 .ro .volatile 0 (.int 0) none none 0.5,
    dp "Fon_Fault_Code" .u8 .ro .volatile 0 (.int 0) none none 0.0,
    dp "Fon_Starts_Per_Hour" .u8 .ro .volatile 0 (.int 0) none none 0.0,
    dp "Fon_Sensor_Err_Count" .u32 .ro .volatile 0 (.int 0) none none 0.0,
    dp "Fon_Sensor_Noise_mV" .u16 .ro .volatile 0 (.int 0) none none 0.0,
    dp "Fon_Fault_Ack" .u8 .rw .volatile 0 (.int 0) (some 0.0) (some 1.0) 0.0,
    dp "Fon_Pump_Command" .u8 .rw .volatile 0 (.int 0) (some 0.0) (some 5.0) 0.0,
    dp "Fon_Event_Label" .u8 .rw .volatile 0 (.int 0) (some 0.0) (some 7.0) 0.0,
    dp "Fon_Pressure_Manual" .bool .rw .volatile 0 (.int 0) none none 0.0,
    dp "Fon_Pressure_Value" .f32 .rw .volatile 0 (.int 0) (some 0.0) (some 100.0) 0.05,
    dp "Fon_Min_Pressure" .f32 .rw .nvs 101 (.flt 2.0) (some 0.0) (some 10.0) 0.0,
    dp "Fon_Max_Pressure" .f32 .rw .nvs 102 (.flt 3.5) (some 0.0) (some 10.0) 0.0,
    dp "Fon_Alert_High_Pressure" .f32 .rw .nvs 103 (.flt 4.5) (some 0.0) (some 12.0) 0.0,
    dp "Fon_Alert_Low_Pressure" .f32 .rw .nvs 104 (.flt 0.3) (some 0.0) (some 10.0) 0.0,
    dp "Fon_Min_On_Time" .u16 .rw .nvs 105 (.int 30) (some 0.0) (some 3600.0) 0.0,
    dp "Fon_Max_On_Time" .u16 .rw .nvs 106 (.int 300) (some 10.0) (some 65535.0) 0.0,
    dp "Fon_Dry_Run_Detect_Time" .u16 .rw .nvs 107 (.int 30) (some 1.0) (some 3600.0) 0.0,
    dp "Fon_Dry_Run_Min_Rise" .u16 .rw .nvs 108 (.int 100) (some 0.0) (some 10000.0) 0.0,
    dp "Fon_Check_Valve_Timeout" .u16 .rw .nvs 109 (.int 10) (some 1.0) (some 3600.0) 0.0,
    dp "Fon_Pressure_Drop_Rate" .u16 .rw .nvs 110 (.int 500) (some 0.0) (some 65535.0) 0.0,
    dp "Fon_Report_Interval" .u16 .rw .nvs 111 (.int 10) (some 1.0) (some 3600.0) 0.0,
    dp "Fon_Sensor_Offset" .i16 .rw .nvs 112 (.int 0) (some (-5000.0)) (some 5000.0) 0.0,
    dp "Fon_Sensor_Scale" .f32 .rw .nvs 113 (.flt 1.0) none none 0.0,
    dp "Fon_Sensor_Range_Bar" .f32 .rw .nvs 114 (.flt 34.47) (some 0.1) (some 100.0) 0.0,
    dp "Fon_Min_Off_Time" .u16 .rw .nvs 115 (.int 30) (some 0.0) (some 3600.0) 0.0,
    dp "Fon_Filter_Alpha" .f32 .rw .nvs 116 (.flt 0.1) (some 0.01) (some 1.0) 0.0,
    dp "Fon_Stable_Slope" .f32 .rw .nvs 117 (.flt 0.02) (some 0.001) (some 1.0) 0.0,
    dp "Fon_Max_Starts_Per_Hour" .u8 .rw .nvs 118 (.int 10) (some 1.0) (some 16.0) 0.0,
    dp "Fon_Hand_Min_Pressure" .f32 .rw .nvs 119 (.flt 1.7) (some 0.0) (some 100.0) 0.0,
    dp "Fon_Hand_Max_Pressure" .f32 .rw .nvs 120 (.flt 2.0) (some 0.0) (some 100.0) 0.0,
    dp "Fon_Tank_Min_Pressure" .f32 .rw .nvs 121 (.flt 1.2) (some 0.0) (some 100.0) 0.0,
    dp "Fon_Tank_Max_Pressure" .f32 .rw .nvs 122 (.flt 1.6) (some 0.0) (some 100.0) 0.0,
    dp "Fon_Hand_Max_Duration" .u16 .rw .nvs 123 (.int 20) (some 1.0) (some 1440.0) 0.0,
    dp "Fon_Tank_Max_Duration" .u16 .rw .nvs 124 (.int 12) (some 1.0) (some 1440.0) 0.0,
    dp "Fon_Unknown_Max_Duration" .u16 .rw .nvs 125 (.int 10) (some 1.0) (some 1440.0) 0.0,
    dp "Fon_Flow_K_Hand" .f32 .rw .nvs 126 (.int 0) (some 0.0) (some 1000.0) 0.0,
    dp "Fon_Flow_K_Tank" .f32 .rw .nvs 127 (.int 0) (some 0.0) (some 1000.0) 0.0,
    dp "Network_SSID" .str .rw .nvs 201 (.int 0) none none 0.0,
    dp "Network_Password" .str .rw .nvs 202 (.int 0) none none 0.0,
    dp "Network_Server" .str .rw .nvs 203 (.int 0) none none 0.0,
    dp "Network_Server_Port" .u16 .rw .nvs 204 (.int 8443) (some 1.0) (some 65535.0) 0.0,
    dp "Network_DHCP" .bool .rw .nvs 205 (.int 1) none none 0.0,
    dp "Network_IP_Address" .str .rw .nvs 206 (.int 0) none none 0.0,
    dp "Network_Subnetmask" .str .rw .nvs 207 (.int 0) none none 0.0,
    dp "Network_Gateway" .str .rw .nvs 208 (.int 0) none none 0.0,
    dp "Net_PS_Override" .u8 .rw .nvs 210 (.int 0) (some 0.0) (some 2.0) 0.0,
    dp "Backup_DHCP" .bool .ro .nvs 301 (.int 1) none none 0.0,
    dp "Backup_IP_Address" .str .ro .nvs 302 (.int 0) none none 0.0,
    dp "Backup_Subnetmask" .str .ro .nvs 303 (.int 0) none none 0.0,
    dp "Backup_Gateway" .str .ro .nvs 304 (.int 0) none none 0.0,
    dp "Backup_Server" .str .ro .nvs 305 (.int 0) none none 0.0,
    dp "Backup_Server_Port" .u16 .ro .nvs 306 (.int 8443) none none 0.0,
    dp "Backup_SSID" .str .ro .nvs 307 (.int 0) none none 0.0,
    dp "Backup_Password" .str .ro .nvs 308 (.int 0) none none 0.0,
    dp "Log_Enabled" .bool .rw .nvs 401 (.int 1) none none 0.0,
    dp "Log_Runtime_Level" .u8 .rw .nvs 402 (.int 3) (some 0.0) (some 5.0) 0.0,
    dp "Log_Flash_Level" .u8 .rw .nvs 403 (.int 2) (some 0.0) (some 5.0) 0.0,
    dp "Network_Save" .u8 .rw .volatile 0 (.int 0) (some 0.0) (some 4.0) 0.0,
    dp "Network_Trial_State" .u8 .ro .volatile 0 (.int 0) none none 0.0,
    dp "Log_Next_Seq" .u32 .ro .volatile 0 (.int 0) none none 0.0,
    dp "Log_Dropped" .u32 .ro .volatile 0 (.int 0) none none 0.0,
    dp "Log_Dropped_Flash" .u32 .ro .volatile 0 (.int 0) none none 0.0,
    dp "Log_Prev_Boot_Available" .bool .ro .volatile 0 (.int 0) none none 0.0,
    dp "Log_Command" .u8 .rw .volatile 0 (.int 0) (some 0.0) (some 3.0) 0.0,
    dp "Pressure_Hist_Next_Seq" .u32 .ro .volatile 0 (.int 0) none none 0.0,
    dp "Pressure_Hist_Overwritten" .u32 .ro .volatile 0 (.int 0) none none 0.0,
    dp "Pressure_Hist_Highwater" .u32 .ro .volatile 0 (.int 0) none none 0.0,
    dp "Can_Enabled" .bool .rw .nvs 601 (.int 1) none none 0.0,
    dp "Can_Node_Id" .u8 .rw .nvs 602 (.int 3) (some 1.0) (some 127.0) 0.0,
    dp "Can_Bitrate" .u16 .rw .nvs 603 (.int 250) (some 10.0) (some 1000.0) 0.0,
    dp "Can_Heartbeat_Ms" .u16 .rw .nvs 604 (.int 1000) (some 0.0) (some 65535.0) 0.0,
    dp "Can_Loopback" .bool .rw .volatile 0 (.int 0) none none 0.0,
    dp "Can_Master_Timeout_Ms" .u16 .rw .nvs 605 (.int 5000) (some 100.0) (some 65535.0) 0.0,
    dp "Can_Master_Active" .bool .ro .volatile 0 (.int 0) none none 0.0,
    dp "Can_Master_Age_S" .u32 .ro .volatile 0 (.int 0) none none 0.0,
    dp "Can_Nmt_State" .u8 .ro .volatile 0 (.int 0) none none 0.0,
    dp "Can_Sdo_Count" .u32 .ro .volatile 0 (.int 0) none none 0.0,
    dp "Can_Pdo_Tx_Count" .u32 .ro .volatile 0 (.int 0) none none 0.0,
    dp "Can_Pdo_Rx_Count" .u32 .ro .volatile 0 (.int 0) none none 0.0,
    dp "Can_Emcy_Count" .u16 .ro .volatile 0 (.int 0) none none 0.0,
    dp "Can_State" .enum .ro .volatile 0 (.int 0) none none 0.0,
    dp "Can_Rx_Frames" .u32 .ro .volatile 0 (.int 0) none none 0.0,
    dp "Can_Tx_Frames" .u32 .ro .volatile 0 (.int 0) none none 0.0,
    dp "Can_Bus_Errors" .u32 .ro .volatile 0 (.int 0) none none 0.0,
    dp "Can_Bus_Off_Count" .u16 .ro .volatile 0 (.int 0) none none 0.0,
    dp "System_WD_Last_Channel" .u8 .ro .volatile 0 (.int 0) none none 0.0,
    dp "System_WD_Last_Checkpoint" .u16 .ro .volatile 0 (.int 0) none none 0.0,
    dp "System_WD_Reboot_Count" .u8 .ro .volatile 0 (.int 0) none none 0.0
  ]

section

variable (rows : List DpPoint)

/-- `g_dp`: the descriptor table generated from the rows. -/
def gDp : List DpDesc := layout 0 rows

/-- `dp_find`. -/
def dpFind (name : String) : Option DpDesc := (gDp rows).find? (fun d => d.name == name)

variable {rows}

theorem dpFind_mem {name : String} {d : DpDesc} (h : dpFind rows name = some d) : d ∈ gDp rows :=
  List.mem_of_find?_eq_some h

theorem dpFind_name {name : String} {d : DpDesc} (h : dpFind rows name = some d) :
    d.name = name := by
  have := List.find?_some h
  simpa using this

/-- Two different points of the table have disjoint slots. -/
theorem gDp_disjoint {a b : DpDesc} (ha : a ∈ gDp rows) (hb : b ∈ gDp rows) (hne : a ≠ b) :
    a.off + a.size ≤ b.off ∨ b.off + b.size ≤ a.off := by
  have hpair : (gDp rows).Pairwise
      (fun a b => a.off + a.size ≤ b.off ∨ b.off + b.size ≤ a.off) :=
    (layout_pairwise 0 rows).imp (fun h => .inl h)
  have : Std.Symm (fun a b : DpDesc => a.off + a.size ≤ b.off ∨ b.off + b.size ≤ a.off) :=
    ⟨fun _ _ h => h.symm⟩
  exact hpair.forall ha hb hne

/-- Points found under different names have disjoint slots. -/
theorem dpFind_disjoint {m n : String} {a b : DpDesc} (ha : dpFind rows m = some a)
    (hb : dpFind rows n = some b) (hne : m ≠ n) :
    a.off + a.size ≤ b.off ∨ b.off + b.size ≤ a.off := by
  apply gDp_disjoint (dpFind_mem ha) (dpFind_mem hb)
  rintro rfl
  exact hne ((dpFind_name ha).symm.trans (dpFind_name hb))

end

/-- The table has the rows in their order. -/
theorem layout_toDpPoint (off : ℕ) (rows : List DpPoint) :
    (layout off rows).map DpDesc.toDpPoint = rows := by
  induction rows generalizing off with
  | nil => rfl
  | cons p ps ih => rw [layout, List.map_cons, ih]

theorem dpList_names : (dpList.map (·.name)).Nodup := by
  decide +kernel

/-- A catalogue: rows whose names, fields of one `struct`, are different. -/
structure Catalogue where
  rows : List DpPoint
  names : (rows.map (·.name)).Nodup

namespace Catalogue

variable (c : Catalogue)

theorem gDp_names : ((gDp c.rows).map (·.name)).Nodup := by
  have hrows : (gDp c.rows).map (·.name) = ((gDp c.rows).map DpDesc.toDpPoint).map (·.name) :=
    (List.map_map ..).symm
  rw [hrows, gDp, layout_toDpPoint]
  exact c.names

variable {c}

/-- A point is found under its name. -/
theorem dpFind_of_mem {d : DpDesc} (h : d ∈ gDp c.rows) : dpFind c.rows d.name = some d := by
  rcases hfind : dpFind c.rows d.name with _ | e
  · have hnone := List.find?_eq_none.mp hfind d h
    exact absurd (beq_self_eq_true d.name) hnone
  · rw [List.inj_on_of_nodup_map c.gDp_names (dpFind_mem hfind) h (dpFind_name hfind)]

end Catalogue

end Fountainer.Datapoints
