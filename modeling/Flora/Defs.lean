import Flora.Caps

/-! # Protocol constants

The command numbers of `defs.h`, the result codes and message types of `flora-cli.h` and the
dispatcher's limits, under the source's words. -/

namespace Flora

def floraVersion : Word := 4

def cmdAuthReq : Word := 0
def cmdSubscribeReq : Word := 1
def cmdUnsubscribeReq : Word := 2
def cmdPostReq : Word := 3
def cmdReplyReq : Word := 4
def cmdDeclareMethodReq : Word := 5
def cmdRemoveMethodReq : Word := 6
def cmdCallReq : Word := 7
def cmdPingReq : Word := 8

def cmdAuthResp : Word := 101
def cmdPostResp : Word := 102
def cmdReplyResp : Word := 103
def cmdCallResp : Word := 104
def cmdMonitorResp : Word := 105
def cmdPongResp : Word := 106

def msgHandlerCount : Int := 9

def monitorListAll : Word := 0
def monitorListAdd : Word := 1
def monitorListRemove : Word := 2

def defaultMsgBufSize : Nat := 32768
/-- Seconds. -/
def clearSubscriptionTimeThreshold : Nat := 10
def clearSubscriptionThreshold : Nat := 50
/-- Milliseconds. -/
def defaultCallTimeout : Nat := 200

def cliSuccess : Word := 0
def cliEauth : Word := -1
def cliEinval : Word := -2
def cliEconn : Word := -3
def cliEtimeout : Word := -4
def cliEnexists : Word := -5
def cliEdupid : Word := -6
def cliEinsuffBuf : Word := -7
def cliEclosed : Word := -8
def cliEdeadlock : Word := -9
def cliEmonitor : Word := -10

def msgtypePersist : Word := 1
def numberOfMsgtype : Word := 2

/-- `FLORA_CLI_FLAG_MONITOR` and `FLORA_DISP_FLAG_MONITOR` are both bit 0. -/
def hasMonitorFlag (flags : Word) : Bool := flags &&& 1 ≠ 0

def isValidMsgtype (msgtype : Word) : Bool := msgtype < numberOfMsgtype

/-- `serialize_flags` of a connection: 0 on unix sockets, `CAPS_FLAG_NET_BYTEORDER` on tcp. -/
inductive ByteOrder where
  | host
  | net
  deriving DecidableEq, Repr

end Flora
