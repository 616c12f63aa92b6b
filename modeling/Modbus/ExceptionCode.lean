import Modbus.Hex

/-!
# Exception codes

A device that cannot serve a request answers with one byte that says why.  The defined codes have
names; any other byte is kept as it came (`ExceptionCode.other`), so that no reply loses its code.
-/

namespace Modbus

/-- **Why a device refused a request.** -/
inductive ExceptionCode where
  | illegalFunction
  | illegalDataAddress
  | illegalDataValue
  | slaveDeviceFailure
  | acknowledge
  | slaveDeviceBusy
  | negativeAcknowledge
  | memoryParityError
  | gatewayPathUnavailable
  | gatewayTargetFailedToRespond
  /-- A code outside the defined set. -/
  | other (code : UInt8)
deriving DecidableEq, Repr

namespace ExceptionCode

def ofByte (byte : UInt8) : ExceptionCode :=
  match byte with
  | 0x01 => illegalFunction
  | 0x02 => illegalDataAddress
  | 0x03 => illegalDataValue
  | 0x04 => slaveDeviceFailure
  | 0x05 => acknowledge
  | 0x06 => slaveDeviceBusy
  | 0x07 => negativeAcknowledge
  | 0x08 => memoryParityError
  | 0x0A => gatewayPathUnavailable
  | 0x0B => gatewayTargetFailedToRespond
  | byte => other byte

def toByte : ExceptionCode → UInt8
  | illegalFunction => 0x01
  | illegalDataAddress => 0x02
  | illegalDataValue => 0x03
  | slaveDeviceFailure => 0x04
  | acknowledge => 0x05
  | slaveDeviceBusy => 0x06
  | negativeAcknowledge => 0x07
  | memoryParityError => 0x08
  | gatewayPathUnavailable => 0x0A
  | gatewayTargetFailedToRespond => 0x0B
  | other code => code

/-- **No byte is lost.**  A code read from a byte is sent as that byte. -/
@[simp] theorem toByte_ofByte (byte : UInt8) : (ofByte byte).toByte = byte := by
  unfold ofByte
  split <;> rfl

def name : ExceptionCode → String
  | illegalFunction => "IllegalFunction"
  | illegalDataAddress => "IllegalDataAddress"
  | illegalDataValue => "IllegalDataValue"
  | slaveDeviceFailure => "SlaveDeviceFailure"
  | acknowledge => "Acknowledge"
  | slaveDeviceBusy => "SlaveDeviceBusy"
  | negativeAcknowledge => "NegativeAcknowledge"
  | memoryParityError => "MemoryParityError"
  | gatewayPathUnavailable => "GatewayPathUnavailable"
  | gatewayTargetFailedToRespond => "GatewayTargetDeviceFailedToRespond"
  | other code => "Other(" ++ toString code.toNat ++ ")"

def description : ExceptionCode → String
  | illegalFunction => "Illegal Function"
  | illegalDataAddress => "Illegal Data Address"
  | illegalDataValue => "Illegal Data Value"
  | slaveDeviceFailure => "Slave Device Failure"
  | acknowledge => "Acknowledge"
  | slaveDeviceBusy => "Slave Device Busy"
  | negativeAcknowledge => "Negative Acknowledge"
  | memoryParityError => "Memory Parity Error"
  | gatewayPathUnavailable => "Gateway Path Unavailable"
  | gatewayTargetFailedToRespond => "Gateway Target Device Failed to Respond"
  | other code => "Unknown exception 0x" ++ Hex.byte code

end ExceptionCode

end Modbus
