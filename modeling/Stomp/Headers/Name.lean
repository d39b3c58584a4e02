import Stomp.Text.Basic

/-!
# Header names

The names that requests and replies give a meaning to.
-/

namespace Stomp.Headers.Name

def destination : Text := "destination"
def transaction : Text := "transaction"
def ack : Text := "ack"
def messageId : Text := "message-id"
def subscription : Text := "subscription"
def receipt : Text := "receipt"
def receiptId : Text := "receipt-id"
def contentLength : Text := "content-length"
def login : Text := "login"
def passcode : Text := "passcode"
def clientId : Text := "client-id"
def session : Text := "session"
def version : Text := "version"
def heartBeat : Text := "heart-beat"
def server : Text := "server"
def message : Text := "message"

end Stomp.Headers.Name
